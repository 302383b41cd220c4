import Gradual.Proofs.Termination

/-!
What a join of two types comes down to, and how many steps it takes.
-/

namespace Gradual

theorem Ty.isDynamic_eq_false {t : Ty} (error : t ≠ .error) (any : t ≠ .any)
    (unbound : ∀ name, t ≠ .unbound name) : t.isDynamic = false := by
  cases t with
  | error | any => contradiction
  | unbound name => exact absurd rfl (unbound name)
  | void | noneType | inst | callable | overloaded | tuple | typeVar => rfl

namespace TypeOrder

variable {o : TypeOrder} {le : Ty → Ty → Option Bool} {join : Ty → Ty → Option Ty} {s t : Ty}
  {w : Ty → Nat} {n : Nat}

/-- The join of the instances that two types count as. -/
def joinFallbacks (o : TypeOrder) (le : Ty → Ty → Option Bool) (join : Ty → Ty → Option Ty)
    (s t : Ty) : Option Ty :=
  match o.joinInstance? s, o.joinInstance? t with
  | some a, some b => o.joinInstances le join a b
  | _, _ => some o.objectType

/-- What the join of two types comes down to. -/
inductive Meeting where
  | settled (t : Ty)
  | pair (s t : Ty)
  | items (as bs : List Ty)
  | functions (s t : Signature)
  | fallbacks (s t : Ty)

def Meeting.answer (o : TypeOrder) (le : Ty → Ty → Option Bool) (join : Ty → Ty → Option Ty) :
    Meeting → Option Ty
  | settled t => some t
  | pair s t => join s t
  | items as bs => ((as.zip bs).mapM fun (a, b) => join a b).map .tuple
  | functions s t => do
    if ← le (.callable s) (.callable t) then return .callable t
    if ← le (.callable t) (.callable s) then return .callable s
    o.joinFallbacks le join (.callable s) (.callable t)
  | fallbacks s t => o.joinFallbacks le join s t

/-- What decides the join of two types. -/
def meeting (s t : Ty) : Meeting :=
  match s, t with
  | .error, _ | _, .error => .settled .error
  | .any, _ | .unbound _, _ | _, .any | _, .unbound _ => .settled .any
  | .void, .void => .settled .void
  | .void, _ | _, .void => .settled .error
  | .noneType, t => .settled t
  | s, .noneType => .settled s
  | s, t =>
    if s.isSame t then .settled s
    else
      match s, t with
      | .typeVar v, t => .pair v.upperBound t
      | s, .typeVar w => .pair s w.upperBound
      | .tuple as, .tuple bs =>
        if as.length = bs.length then .items as bs else .fallbacks (.tuple as) (.tuple bs)
      | .callable s, .callable t => .functions s t
      | s, t => .fallbacks s t

theorem joinWithin_succ (steps : Nat) (s t : Ty) :
    o.joinWithin (steps + 1) s t =
      (meeting s t).answer o (o.subtypeWithin steps) (o.joinWithin steps) := by
  have tuples (as bs : List Ty) :
      (do
        if as.length = bs.length then
          return .tuple (← (as.zip bs).mapM fun pair => o.joinWithin steps pair.1 pair.2)
        o.joinFallbacks (o.subtypeWithin steps) (o.joinWithin steps) (.tuple as) (.tuple bs)) =
      (if as.length = bs.length then Meeting.items as bs
        else .fallbacks (.tuple as) (.tuple bs)).answer o (o.subtypeWithin steps)
          (o.joinWithin steps) := by
    split
    · exact bind_pure_comp _ _
    · rfl
  unfold joinWithin meeting
  cases s <;> cases t <;> first | rfl | skip
  all_goals dsimp only; split
  all_goals first | rfl | exact tuples _ _

/-! ### Steps that suffice -/

theorem mapM_isSome {α β : Type} {f : α → Option β} {xs : List α}
    (h : ∀ x ∈ xs, (f x).isSome = true) : (xs.mapM f).isSome = true := by
  induction xs with
  | nil => rfl
  | cons x xs ih =>
    obtain ⟨first, rest⟩ := List.forall_mem_cons.mp h
    obtain ⟨y, made⟩ := Option.isSome_iff_exists.mp first
    obtain ⟨ys, later⟩ := Option.isSome_iff_exists.mp (ih rest)
    simp [List.mapM_cons, made, later]

section

variable (weighs : o.Weighs w) (compares : ∀ s t, w s + w t ≤ n → (le s t).isSome = true)
  (joins : ∀ s t, w s + w t < n → (join s t).isSome = true)
include weighs compares joins

theorem joinSameClass_isSome {a b : Instance} (h : w a.toTy + w b.toTy ≤ n) :
    (o.joinSameClass le join a b).isSome = true := by
  obtain ⟨below, answer⟩ := Option.isSome_iff_exists.mp (compares a.toTy b.toTy h)
  obtain ⟨above, answer'⟩ := Option.isSome_iff_exists.mp (compares b.toTy a.toTy (by omega))
  have args : ((a.args.zip b.args).mapM fun (x, y) => join x y).isSome = true := by
    refine mapM_isSome fun p member => joins p.1 p.2 ?_
    have left := weighs.part a.toTy p.1 (List.of_mem_zip member).1
    have right := weighs.part b.toTy p.2 (List.of_mem_zip member).2
    omega
  obtain ⟨joined, made⟩ := Option.isSome_iff_exists.mp args
  unfold joinSameClass
  cases below <;> cases above <;> simp [answer, answer', made]

theorem joinInstances_isSome {a b : Instance} (h : w a.toTy + w b.toTy ≤ n) :
    (o.joinInstances le join a b).isSome = true := by
  unfold joinInstances
  split
  · exact joinSameClass_isSome weighs compares joins h
  · split
    · rfl
    · split
      · rename_i seen seen'
        have left := weighs.view _ _ _ seen
        have right := weighs.view _ _ _ seen'
        exact joinSameClass_isSome weighs compares joins (by omega)
      · rfl

omit compares joins in
theorem Weighs.joinInstance_le {i : Instance} (h : o.joinInstance? t = some i) :
    w i.toTy ≤ w t := by
  rcases Option.or_eq_some_iff.mp h with fallen | ⟨-, own⟩
  · exact weighs.fallback t i fallen
  · cases t with
    | inst c n args => exact Option.some.inj own ▸ Nat.le_refl _
    | any | void | noneType | callable | overloaded | tuple | typeVar | unbound | error => cases own

theorem joinFallbacks_isSome (h : w s + w t ≤ n) : (o.joinFallbacks le join s t).isSome = true := by
  unfold joinFallbacks
  split
  · rename_i left right
    have lower := weighs.joinInstance_le left
    have lower' := weighs.joinInstance_le right
    exact joinInstances_isSome weighs compares joins (by omega)
  · rfl

theorem meeting_isSome (h : w s + w t ≤ n) : ((meeting s t).answer o le join).isSome = true := by
  have fallbacks {s t : Ty} (h : w s + w t ≤ n) : (o.joinFallbacks le join s t).isSome = true :=
    joinFallbacks_isSome weighs compares joins h
  have bound (v : TypeVar) : w v.upperBound < w (.typeVar v) := weighs.part _ _ List.mem_cons_self
  fun_cases meeting s t with
  | case13 v =>
    have less := bound v
    exact joins _ _ (by omega)
  | case14 _ v =>
    have less := bound v
    exact joins _ _ (by omega)
  | case15 as bs =>
    refine Option.isSome_map.trans (mapM_isSome fun p member => joins p.1 p.2 ?_)
    have left := weighs.part (.tuple as) p.1 (List.of_mem_zip member).1
    have right := weighs.part (.tuple bs) p.2 (List.of_mem_zip member).2
    omega
  | case17 s t =>
    obtain ⟨below, answer⟩ := Option.isSome_iff_exists.mp (compares (.callable s) (.callable t) h)
    obtain ⟨above, answer'⟩ :=
      Option.isSome_iff_exists.mp (compares (.callable t) (.callable s) (by omega))
    have last := fallbacks h
    cases below <;> cases above <;> simp [Meeting.answer, answer, answer', last]
  | case16 | case18 => exact fallbacks h
  | _ => rfl

end

/-- One step more than for a comparison suffices for a join, which may begin with one. -/
theorem Weighs.joinWithin_isSome (weighs : o.Weighs w) {steps : Nat} (enough : w s + w t < steps) :
    (o.joinWithin steps s t).isSome = true := by
  induction steps generalizing s t with
  | zero => omega
  | succ steps ih =>
    rw [joinWithin_succ]
    exact meeting_isSome weighs (fun _ _ h => weighs.subtypeWithin_isSome h) (fun _ _ h => ih h)
      (Nat.le_of_lt_succ enough)

end TypeOrder
end Gradual
