import Gradual.Proofs.Alike
import Gradual.Proofs.FreeVariables
import Gradual.Proofs.Joins
import Gradual.Proofs.Supertypes

/-!
Types in which every instance has a type argument for each type variable of its class. What they are
seen as and what they are joined to is such a type again, and no type variable gets free that is not free
in one of them. Where type arguments are missing, a class behind shows its own type variables instead.
-/

namespace Gradual

/-- Every instance in the type has its type arguments, and nothing is free in what type variables are
bounded by. -/
inductive Ty.Filled (t : ClassTable) : Ty → Prop
  | dynamic {s : Ty} : s.isDynamic = true → Filled t s
  | void : Filled t .void
  | noneType : Filled t .noneType
  | inst {c : ClassId} {n : String} {args : List Ty} : args.length = t.arity c →
    (∀ a ∈ args, Filled t a) → Filled t (.inst c n args)
  | tuple {items : List Ty} : (∀ a ∈ items, Filled t a) → Filled t (.tuple items)
  | callable {s : Signature} : (∀ a ∈ s.argTypes, Filled t a) → Filled t s.ret → Filled t (.callable s)
  | overloaded {items : List Signature} : (∀ s ∈ items, Filled t (.callable s)) →
    Filled t (.overloaded items)
  | typeVar {v : TypeVar} : Filled t v.upperBound → v.upperBound.freeVars = [] → Filled t (.typeVar v)

variable {t : ClassTable} {s u : Ty} {x : Int}

namespace Ty.Filled

theorem inst_iff {c : ClassId} {n : String} {args : List Ty} :
    (Ty.inst c n args).Filled t ↔ args.length = t.arity c ∧ ∀ a ∈ args, a.Filled t := by
  constructor
  · rintro (⟨⟨⟩⟩ | _ | _ | ⟨length, args⟩)
    exact ⟨length, args⟩
  · exact fun ⟨length, args⟩ => .inst length args

theorem tuple_iff {items : List Ty} : (Ty.tuple items).Filled t ↔ ∀ a ∈ items, a.Filled t := by
  constructor
  · rintro (⟨⟨⟩⟩ | _ | _ | _ | items)
    exact items
  · exact .tuple

theorem callable_iff {s : Signature} :
    (Ty.callable s).Filled t ↔ (∀ a ∈ s.argTypes, a.Filled t) ∧ s.ret.Filled t := by
  constructor
  · rintro (⟨⟨⟩⟩ | _ | _ | _ | _ | ⟨args, ret⟩)
    exact ⟨args, ret⟩
  · exact fun ⟨args, ret⟩ => .callable args ret

theorem typeVar_iff {v : TypeVar} :
    (Ty.typeVar v).Filled t ↔ v.upperBound.Filled t ∧ v.upperBound.freeVars = [] := by
  constructor
  · rintro (⟨⟨⟩⟩ | _ | _ | _ | _ | _ | _ | ⟨bound, closed⟩)
    exact ⟨bound, closed⟩
  · exact fun ⟨bound, closed⟩ => .typeVar bound closed

theorem of_mem_signatures {s : Ty} (h : s.Filled t) {sig : Signature} (member : sig ∈ s.signatures) :
    (Ty.callable sig).Filled t := by
  cases h with
  | dynamic marked =>
    cases s with
    | any | unbound | error => cases member
    | void | noneType | inst | callable | overloaded | tuple | typeVar => cases marked
  | @callable own args ret => exact List.mem_singleton.mp member ▸ .callable args ret
  | overloaded each => exact each sig member
  | void | noneType | inst | tuple | typeVar => cases member

/-- Filled types can take the places of type variables. -/
theorem substitute {f : Substitution} (h : s.Filled t) (given : ∀ v u, f v = some u → u.Filled t) :
    (s.substitute f).Filled t := by
  induction h with
  | @dynamic s marked =>
    cases s with
    | any | unbound | error => exact .dynamic rfl
    | void | noneType | inst | callable | overloaded | tuple | typeVar => cases marked
  | void => exact .void
  | noneType => exact .noneType
  | inst length _ ih =>
    rw [Ty.substitute, substituteEach_eq_map]
    exact .inst (by rw [List.length_map, length]) (List.forall_mem_map.mpr ih)
  | tuple _ ih =>
    rw [Ty.substitute, substituteEach_eq_map]
    exact .tuple (List.forall_mem_map.mpr ih)
  | callable _ _ args ret =>
    refine .callable ?_ ?_
    · rw [Signature.argTypes_substitute]
      exact List.forall_mem_map.mpr args
    · rw [Signature.ret_substitute]
      exact ret
  | overloaded _ ih =>
    rw [Ty.substitute, substituteSignatures_eq_map]
    exact .overloaded (List.forall_mem_map.mpr ih)
  | @typeVar v bound closed _ =>
    rw [Ty.substitute]
    cases replaced : f v with
    | none => exact .typeVar bound closed
    | some u => exact given v u replaced

theorem expandBy {args : List Ty} (h : s.Filled t) (given : ∀ a ∈ args, a.Filled t) :
    (s.expandBy args).Filled t := by
  cases args with
  | nil => exact h
  | cons a as =>
    refine h.substitute fun v u replaced => given u ?_
    exact mem_of_argument? (x := v.id) replaced

end Ty.Filled

/-- With a type argument for each free type variable only what is free in these is free. -/
theorem Ty.mem_freeVars_expandBy {args : List Ty}
    (own : ∀ y ∈ s.freeVars, 1 ≤ y ∧ y ≤ args.length) (free : x ∈ (s.expandBy args).freeVars) :
    ∃ a ∈ args, x ∈ a.freeVars := by
  by_cases given : args = []
  · subst given
    have inside := own x free
    simp only [List.length_nil] at inside
    omega
  · rw [s.expandBy_eq given] at free
    rcases s.freeAfter_substitute free with ⟨before, kept⟩ | ⟨y, u, put, inside⟩
    · obtain ⟨one, low⟩ := own x before
      rw [argument?_eq_none_iff one] at kept
      omega
    · exact ⟨u, mem_of_argument? put, inside⟩

/-! ### Views -/

/-- Every base has its type arguments, and mentions only the type variables of the class. -/
def ClassTable.FillsBases (t : ClassTable) : Prop := ∀ c, ∀ base ∈ t.bases c,
  base.toTy.Filled t ∧ ∀ x ∈ base.toTy.freeVars, 1 ≤ x ∧ x ≤ t.arity c

/-- The type is filled, and only these type variables are free in it. -/
structure Ty.FilledOver (t : ClassTable) (ids : List Int) (u : Ty) : Prop where
  filled : u.Filled t
  free : u.freeVars ⊆ ids

namespace Ty.FilledOver

variable {ids : List Int}

theorem closed (h : u.Filled t) (nothing : u.freeVars = []) : u.FilledOver t ids :=
  ⟨h, nothing ▸ List.nil_subset ids⟩

theorem inst_iff {c : ClassId} {n : String} {args : List Ty} : (Ty.inst c n args).FilledOver t ids ↔
    args.length = t.arity c ∧ ∀ a ∈ args, a.FilledOver t ids := by
  constructor
  · rintro ⟨filled, free⟩
    obtain ⟨length, each⟩ := Filled.inst_iff.mp filled
    exact ⟨length, fun a member => ⟨each a member, fun x inside =>
      free (mem_freeVarsOfEach.mpr ⟨a, member, inside⟩)⟩⟩
  · rintro ⟨length, each⟩
    refine ⟨.inst length fun a member => (each a member).filled, fun x free => ?_⟩
    obtain ⟨a, member, inside⟩ := mem_freeVarsOfEach.mp free
    exact (each a member).free inside

theorem tuple_iff {items : List Ty} :
    (Ty.tuple items).FilledOver t ids ↔ ∀ a ∈ items, a.FilledOver t ids := by
  constructor
  · rintro ⟨filled, free⟩ a member
    exact ⟨Filled.tuple_iff.mp filled a member, fun x inside =>
      free (mem_freeVarsOfEach.mpr ⟨a, member, inside⟩)⟩
  · intro each
    refine ⟨.tuple fun a member => (each a member).filled, fun x free => ?_⟩
    obtain ⟨a, member, inside⟩ := mem_freeVarsOfEach.mp free
    exact (each a member).free inside

end Ty.FilledOver

variable {ids : List Int}

theorem ClassTable.FillsBases.view? {i j : Instance} {c : ClassId} (fills : t.FillsBases)
    (seen : t.view? i c = some j) (hi : i.toTy.FilledOver t ids) : j.toTy.FilledOver t ids := by
  refine viewWithin_induction (fun k => k.toTy.FilledOver t ids) ?_ seen hi
  intro k known base member
  obtain ⟨filled, own⟩ := fills k.cls base member
  obtain ⟨length, args⟩ := Ty.FilledOver.inst_iff.mp known
  rw [← length] at own
  have expanded : (base.expandBy k.args).toTy = base.toTy.expandBy k.args :=
    (Ty.expandBy_inst _ _ _ _).symm
  rw [expanded]
  refine ⟨filled.expandBy fun a listed => (args a listed).filled, fun x free => ?_⟩
  obtain ⟨a, listed, inside⟩ := Ty.mem_freeVars_expandBy own free
  exact (args a listed).free inside

/-! ### Joins -/

namespace TypeOrder

/-- Bases have their type arguments, and the classes that stand for types have no type variables. -/
structure Fills (o : TypeOrder) : Prop where
  bases : o.classes.FillsBases
  basic : ∀ c, some c ∈ o.basic.object :: o.fallbackClasses → o.classes.arity c = 0

variable {o : TypeOrder} (fills : o.Fills)
include fills

theorem Fills.instance? {c : Option ClassId} {i : Instance}
    (listed : c ∈ o.basic.object :: o.fallbackClasses) (made : o.instance? c = some i) :
    i.toTy.FilledOver o.classes ids := by
  obtain ⟨d, rfl, rfl⟩ := Option.map_eq_some_iff.mp made
  exact .closed (.inst (fills.basic d listed).symm (List.forall_mem_nil _)) rfl

theorem Fills.objectType : o.objectType.FilledOver o.classes ids := by
  rw [TypeOrder.objectType]
  cases found : o.instance? o.basic.object with
  | none => exact .closed (.dynamic rfl) rfl
  | some i => exact fills.instance? List.mem_cons_self found

theorem Fills.joinInstance? {i : Instance} (h : s.FilledOver o.classes ids)
    (found : o.joinInstance? s = some i) : i.toTy.FilledOver o.classes ids := by
  rcases Option.or_eq_some_iff.mp found with fallen | ⟨-, own⟩
  · obtain ⟨k, rfl, listed⟩ := exists_of_fallback? fallen
    exact fills.instance? (List.mem_cons_of_mem _ listed) rfl
  · cases s with
    | inst c n args => exact Option.some.inj own ▸ h
    | any | void | noneType | callable | overloaded | tuple | typeVar | unbound | error => cases own

section Step

variable {le : Ty → Ty → Option Bool} {join : Ty → Ty → Option Ty} {a b : Instance}
  (joins : ∀ s r u, s.FilledOver o.classes ids → r.FilledOver o.classes ids → join s r = some u →
    u.FilledOver o.classes ids)
include joins

omit fills in
theorem filledOver_of_mapM {as bs us : List Ty} (has : ∀ a ∈ as, a.FilledOver o.classes ids)
    (hbs : ∀ b ∈ bs, b.FilledOver o.classes ids)
    (made : ((as.zip bs).mapM fun (a, b) => join a b) = some us) :
    us.length = min as.length bs.length ∧ ∀ u ∈ us, u.FilledOver o.classes ids := by
  induction as generalizing bs us with
  | nil =>
    cases made
    simp
  | cons a as ih =>
    cases bs with
    | nil =>
      cases made
      simp
    | cons b bs =>
      obtain ⟨ha, has⟩ := List.forall_mem_cons.mp has
      obtain ⟨hb, hbs⟩ := List.forall_mem_cons.mp hbs
      rw [List.zip_cons_cons, List.mapM_cons] at made
      obtain ⟨first, met, made⟩ := Option.bind_eq_some_iff.mp made
      obtain ⟨others, rest, made⟩ := Option.bind_eq_some_iff.mp made
      cases made
      obtain ⟨length, later⟩ := ih has hbs rest
      exact ⟨by simp [length], List.forall_mem_cons.mpr ⟨joins a b first ha hb met, later⟩⟩

theorem joinSameClass_filledOver (ha : a.toTy.FilledOver o.classes ids)
    (hb : b.toTy.FilledOver o.classes ids) (same : a.cls = b.cls)
    (joined : o.joinSameClass le join a b = some u) : u.FilledOver o.classes ids := by
  unfold joinSameClass at joined
  obtain ⟨below, -, joined⟩ := Option.bind_eq_some_iff.mp joined
  cases below with
  | true => exact Option.some.inj joined ▸ hb
  | false =>
    obtain ⟨above, -, joined⟩ := Option.bind_eq_some_iff.mp joined
    cases above with
    | true => exact Option.some.inj joined ▸ ha
    | false =>
      obtain ⟨us, made, joined⟩ := Option.bind_eq_some_iff.mp joined
      by_cases failed : us.any Ty.isError = true
      · rw [if_pos failed] at joined
        exact Option.some.inj joined ▸ fills.objectType
      · rw [if_neg failed] at joined
        obtain ⟨size, args⟩ := Ty.FilledOver.inst_iff.mp ha
        obtain ⟨size', args'⟩ := Ty.FilledOver.inst_iff.mp hb
        obtain ⟨length, each⟩ := filledOver_of_mapM joins args args' made
        have full : us.length = o.classes.arity a.cls := by
          rw [length, size, size', same, Nat.min_self]
        exact Option.some.inj joined ▸ Ty.FilledOver.inst_iff.mpr ⟨full, each⟩

theorem joinInstances_filledOver (ha : a.toTy.FilledOver o.classes ids)
    (hb : b.toTy.FilledOver o.classes ids) (joined : o.joinInstances le join a b = some u) :
    u.FilledOver o.classes ids := by
  unfold joinInstances at joined
  split at joined
  · exact joinSameClass_filledOver fills joins ha hb ‹_› joined
  · split at joined
    · exact Option.some.inj joined ▸ fills.objectType
    · split at joined
      · rename_i left right seen seen'
        have same : left.cls = right.cls :=
          (ClassTable.view?_cls seen).trans (ClassTable.view?_cls seen').symm
        exact joinSameClass_filledOver fills joins (fills.bases.view? seen ha)
          (fills.bases.view? seen' hb) same joined
      · exact Option.some.inj joined ▸ fills.objectType

theorem joinFallbacks_filledOver {r : Ty} (hs : s.FilledOver o.classes ids)
    (hr : r.FilledOver o.classes ids) (joined : o.joinFallbacks le join s r = some u) :
    u.FilledOver o.classes ids := by
  unfold joinFallbacks at joined
  split at joined
  · rename_i left right found found'
    exact joinInstances_filledOver fills joins (fills.joinInstance? hs found)
      (fills.joinInstance? hr found') joined
  · exact Option.some.inj joined ▸ fills.objectType

theorem meeting_filledOver {r : Ty} (hs : s.FilledOver o.classes ids)
    (hr : r.FilledOver o.classes ids) (met : (meeting s r).answer o le join = some u) :
    u.FilledOver o.classes ids := by
  revert met
  fun_cases meeting s r with
  | case1 | case2 | case3 | case4 | case5 | case6 | case8 | case9 =>
    rintro ⟨⟩
    exact .closed (.dynamic rfl) rfl
  | case7 =>
    rintro ⟨⟩
    exact .closed .void rfl
  | case10 =>
    rintro ⟨⟩
    exact hr
  | case11 | case12 =>
    rintro ⟨⟩
    exact hs
  | case13 v =>
    obtain ⟨bound, closed⟩ := Ty.Filled.typeVar_iff.mp hs.filled
    exact joins _ _ _ (.closed bound closed) hr
  | case14 s w =>
    obtain ⟨bound, closed⟩ := Ty.Filled.typeVar_iff.mp hr.filled
    exact joins _ _ _ hs (.closed bound closed)
  | case15 as bs =>
    intro met
    obtain ⟨us, made, rfl⟩ := Option.map_eq_some_iff.mp met
    have each := filledOver_of_mapM joins (Ty.FilledOver.tuple_iff.mp hs)
      (Ty.FilledOver.tuple_iff.mp hr) made
    exact Ty.FilledOver.tuple_iff.mpr each.2
  | case16 | case18 => exact joinFallbacks_filledOver fills joins hs hr
  | case17 l r =>
    intro met
    obtain ⟨below, -, met⟩ := Option.bind_eq_some_iff.mp met
    cases below with
    | true => exact Option.some.inj met ▸ hr
    | false =>
      obtain ⟨above, -, met⟩ := Option.bind_eq_some_iff.mp met
      cases above with
      | true => exact Option.some.inj met ▸ hs
      | false => exact joinFallbacks_filledOver fills joins hs hr met

end Step

theorem joinWithin_filledOver {steps : Nat} {r : Ty} (hs : s.FilledOver o.classes ids)
    (hr : r.FilledOver o.classes ids) (joined : o.joinWithin steps s r = some u) :
    u.FilledOver o.classes ids := by
  induction steps generalizing s r u with
  | zero => cases joined
  | succ steps ih =>
    rw [joinWithin_succ] at joined
    exact meeting_filledOver fills (fun _ _ _ => ih) hs hr joined

/-- A join of filled types is filled, and brings no type variable in. -/
theorem join_filledOver {r : Ty} (hs : s.FilledOver o.classes ids) (hr : r.FilledOver o.classes ids) :
    (o.join s r).FilledOver o.classes ids := by
  rw [join]
  cases joined : o.join? s r with
  | none => exact .closed (.dynamic rfl) rfl
  | some u => exact joinWithin_filledOver fills hs hr joined

theorem foldl_join_filledOver {first : Ty} {rest : List Ty} (hs : first.FilledOver o.classes ids)
    (hrest : ∀ r ∈ rest, r.FilledOver o.classes ids) :
    (rest.foldl o.join first).FilledOver o.classes ids := by
  induction rest generalizing first with
  | nil => exact hs
  | cons next rest ih =>
    obtain ⟨hr, later⟩ := List.forall_mem_cons.mp hrest
    exact ih (join_filledOver fills hs hr) later

end TypeOrder
end Gradual
