import Gradual.Proofs.PositionalCalls
import Gradual.Proofs.Transitivity

/-!
Methods seen through an instance. Such a method has lost its first formal, whatever it was. Where that one
takes one positional argument, the receiver, the method accepts what it accepted behind the receiver. A
formal that collects arguments would have taken the receiver and all others, and these are refused then.
-/

namespace Gradual
namespace Signature.InOrder

variable {s : Signature} {kind : ArgKind} {kinds : List ArgKind}

theorem bound (h : s.InOrder) : s.bound.InOrder where
  length_kinds := by simp [Signature.bound, h.length_kinds]
  length_names := by simp [Signature.bound, h.length_names]
  ordered := h.ordered.tail

theorem exists_type (h : s.InOrder) (shape : s.argKinds = kind :: kinds) :
    ∃ t ts, s.argTypes = t :: ts := by
  refine List.exists_cons_of_length_pos ?_
  rw [← h.length_kinds, shape]
  exact Nat.succ_pos _

/-! ### A first formal that takes one argument -/

theorem maxFixedArgs_bound (shape : s.argKinds = kind :: kinds) (fixed : kind.isFixed = true) :
    s.maxFixedArgs = s.bound.maxFixedArgs + 1 := by
  rw [maxFixedArgs, maxFixedArgs, Signature.bound, shape, List.tail_cons, List.countP_cons_of_pos fixed]

theorem isVarArg_bound (shape : s.argKinds = kind :: kinds) (fixed : kind.isFixed = true) :
    s.bound.isVarArg = s.isVarArg := by
  rw [isVarArg, isVarArg, Signature.bound, shape, List.tail_cons, List.contains_cons]
  cases kind <;> first | rfl | cases fixed

/-- The other formals move up by one place. -/
theorem positionalType?_bound (shape : s.argKinds = kind :: kinds) (fixed : kind.isFixed = true)
    (i : Nat) : s.bound.positionalType? i = s.positionalType? (i + 1) := by
  have moved (k : Nat) : s.bound.argTypes[k]? = s.argTypes[k + 1]? := List.getElem?_tail
  rw [positionalType?, positionalType?, positionalFormal?, positionalFormal?,
    maxFixedArgs_bound shape fixed, isVarArg_bound shape fixed]
  by_cases early : i < s.bound.maxFixedArgs
  · rw [if_pos early, if_pos (Nat.succ_lt_succ early), Option.bind_some, Option.bind_some, moved]
  · rw [if_neg early, if_neg fun later => early (Nat.lt_of_succ_lt_succ later)]
    cases s.isVarArg with
    | true => exact moved _
    | false => rfl

/-- With its first formal a method loses one argument that must be given, or there is none. -/
theorem minArgs_le_succ_iff (h : s.InOrder) (shape : s.argKinds = kind :: kinds)
    (fixed : kind.isFixed = true) (n : Nat) : s.minArgs ≤ n + 1 ↔ s.bound.minArgs ≤ n := by
  have first := h.pos_first
  rw [shape] at first
  rw [minArgs, minArgs, Signature.bound, shape, List.tail_cons]
  cases kind with
  | pos => rw [List.countP_cons_of_pos rfl, Nat.add_le_add_iff_right]
  | opt =>
    have none : kinds.countP (· == .pos) = 0 :=
      List.countP_eq_zero.mpr fun later member pos => nomatch (List.pairwise_cons.mp first).1 later member pos
    rw [List.countP_cons_of_neg Bool.false_ne_true, none]
    exact iff_of_true (Nat.zero_le _) (Nat.zero_le _)
  | star | named | star2 => cases fixed

end Signature.InOrder

/-- The receiver of a method, as its first argument. -/
def Given.receiver : Given := ⟨⟨.pos, none⟩, .any, none⟩

section

variable {o : TypeOrder} {s : Signature} {kind : ArgKind} {kinds : List ArgKind} {given : List Given}

theorem positional_receiver (positional : ∀ g ∈ given, g.shape.kind = .pos) :
    ∀ g ∈ Given.receiver :: given, g.shape.kind = .pos :=
  List.forall_mem_cons.mpr ⟨rfl, positional⟩

theorem accepts_bound_of_fixed (ordered : s.InOrder) (shape : s.argKinds = kind :: kinds)
    (fixed : kind.isFixed = true) (positional : ∀ g ∈ given, g.shape.kind = .pos) :
    o.accepts s.bound given = true ↔ o.accepts s (.receiver :: given) = true := by
  rw [accepts_positional_iff o ordered.bound positional,
    accepts_positional_iff o ordered (positional_receiver positional), forall_getElem?_cons,
    List.length_cons, ordered.minArgs_le_succ_iff shape fixed]
  obtain ⟨t, ts, types⟩ := ordered.exists_type shape
  have own : s.positionalType? 0 = some t := by
    rw [Signature.positionalType?, Signature.positionalFormal?,
      Signature.InOrder.maxFixedArgs_bound shape fixed, if_pos (Nat.succ_pos _), Option.bind_some, types]
    rfl
  have received : ∃ u, s.positionalType? 0 = some u ∧ o.isSubtype .any u.erase = true :=
    ⟨t, own, TypeOrder.isSubtype_any_left _⟩
  simp only [Signature.InOrder.positionalType?_bound shape fixed]
  exact and_congr_right fun _ => ⟨fun fits => ⟨received, fits⟩, And.right⟩

/-! ### A first formal that collects arguments -/

/-- No formal in front takes one argument, and none needs one. -/
theorem counts_of_star (ordered : s.InOrder) (shape : s.argKinds = .star :: kinds) :
    s.maxFixedArgs = 0 ∧ s.minArgs = 0 ∧ .star ∉ kinds := by
  have first := ordered.ordered
  rw [shape, List.pairwise_cons] at first
  have behind (kind : ArgKind) (member : kind ∈ kinds) : 2 < kind.rank := by
    rcases first.1 kind member with later | ⟨rfl, star⟩
    · exact later
    · cases star
  have none {p : ArgKind → Bool} (early : ∀ kind, p kind = true → kind.rank < 2) :
      s.argKinds.countP p = 0 := by
    rw [shape, List.countP_eq_zero]
    intro kind member holds
    rcases List.mem_cons.mp member with rfl | member
    · exact absurd (early _ holds) (by decide)
    · exact absurd (Nat.lt_trans (early _ holds) (behind kind member)) (Nat.lt_irrefl _)
  refine ⟨none ?_, none ?_, fun member => absurd (behind _ member) (by decide)⟩
  all_goals
    intro kind
    cases kind <;> decide

/-- The receiver and all other arguments are collected. -/
theorem accepts_receiver_of_star (ordered : s.InOrder) (shape : s.argKinds = .star :: kinds) {t : Ty}
    (type : s.argTypes.head? = some t) (positional : ∀ g ∈ given, g.shape.kind = .pos) :
    o.accepts s (.receiver :: given) = true ↔ ∀ g ∈ given, o.isSubtype g.type t.erase = true := by
  obtain ⟨fixed, least, -⟩ := counts_of_star ordered shape
  have varArg : s.isVarArg = true := by
    rw [Signature.isVarArg, shape]
    rfl
  have collected (i : Nat) : s.positionalType? i = some t := by
    rw [Signature.positionalType?, Signature.positionalFormal?, fixed, if_neg (Nat.not_lt_zero i),
      if_pos varArg, Option.bind_some, ← List.head?_eq_getElem?, type]
  rw [accepts_positional_iff o ordered (positional_receiver positional), least,
    forall_getElem?_cons]
  simp only [collected, Option.some.injEq, exists_eq_left', Nat.zero_le, true_and]
  constructor
  · rintro ⟨-, fits⟩ g member
    obtain ⟨i, found⟩ := List.mem_iff_getElem?.mp member
    exact fits i g found
  · intro fits
    exact ⟨TypeOrder.isSubtype_any_left _, fun i g found => fits g (List.mem_of_getElem? found)⟩

/-- Nothing is left that takes a positional argument. -/
theorem accepts_bound_of_star (ordered : s.InOrder) (shape : s.argKinds = .star :: kinds)
    (positional : ∀ g ∈ given, g.shape.kind = .pos) :
    o.accepts s.bound given = true ↔ given = [] := by
  obtain ⟨fixed, least, single⟩ := counts_of_star ordered shape
  have left : s.bound.argKinds = kinds := by
    rw [Signature.bound, shape]
    rfl
  have noFixed : s.bound.maxFixedArgs = 0 := by
    rw [Signature.maxFixedArgs, shape, List.countP_cons_of_neg Bool.false_ne_true] at fixed
    rwa [Signature.maxFixedArgs, left]
  have noLeast : s.bound.minArgs = 0 := by
    rw [Signature.minArgs, shape, List.countP_cons_of_neg Bool.false_ne_true] at least
    rwa [Signature.minArgs, left]
  have noVarArg : s.bound.isVarArg = false := by
    rwa [Signature.isVarArg, left, Bool.eq_false_iff, ne_eq, List.contains_iff_mem]
  have none (i : Nat) : s.bound.positionalType? i = none := by
    rw [Signature.positionalType?, Signature.positionalFormal?, noFixed, if_neg (Nat.not_lt_zero i),
      noVarArg]
    rfl
  rw [accepts_positional_iff o ordered.bound positional, noLeast]
  simp only [none, reduceCtorEq, false_and, exists_false, Nat.zero_le, true_and]
  constructor
  · intro refused
    cases given with
    | nil => rfl
    | cons g given => exact (refused 0 g rfl).elim
  · rintro rfl i g found
    cases found

/-- A method seen through an instance accepts positional arguments exactly if the method accepts the
receiver and the arguments, unless its first formal collects arguments and could take all of them, one at
least: then they are refused behind the receiver. -/
theorem bound_method_accepts_iff (o : TypeOrder) {s : Signature} (ordered : s.InOrder)
    {kind : ArgKind} (first : s.argKinds.head? = some kind)
    (receives : kind.isFixed = true ∨ kind = .star) {given : List Given}
    (positional : ∀ g ∈ given, g.shape.kind = .pos) :
    (o.accepts s.bound given = true ↔ o.accepts s (.receiver :: given) = true) ↔
      (kind = .star → given ≠ [] →
        ∃ g ∈ given, ∃ t ∈ s.argTypes.head?, o.isSubtype g.type t.erase = false) := by
  obtain ⟨kinds, shape⟩ := List.head?_eq_some_iff.mp first
  rcases receives with fixed | rfl
  · refine iff_of_true (accepts_bound_of_fixed ordered shape fixed positional) ?_
    rintro rfl
    cases fixed
  · obtain ⟨t, ts, types⟩ := ordered.exists_type shape
    have type : s.argTypes.head? = some t := by
      rw [types]
      rfl
    rw [accepts_bound_of_star ordered shape positional,
      accepts_receiver_of_star ordered shape type positional, type]
    by_cases empty : given = []
    · simp [empty]
    · simp [empty]

/-- A method that takes its receiver among the arguments that it collects. -/
def Signature.collecting : Signature := .ofFormals [.any] [.star] [some "args"] .noneType

/-- It accepts its receiver and another argument, but seen through an instance no argument. -/
theorem collecting_refuses_argument :
    let o := TypeOrder.ofClasses .derivedPair
    let given : List Given := [⟨⟨.pos, none⟩, .inst 0 "Animal" [], none⟩]
    o.accepts .collecting (.receiver :: given) = true ∧
      o.accepts Signature.collecting.bound given = false := by
  intro o given
  have accepted : o.accepts .collecting (.receiver :: given) = true := by decide +kernel
  have first : Signature.collecting.argKinds.head? = some .star := rfl
  have positional : ∀ g ∈ given, g.shape.kind = .pos := by decide
  have agree := bound_method_accepts_iff o (by decide) first (.inr rfl) positional
  refine ⟨accepted, Bool.eq_false_iff.mpr fun bound => ?_⟩
  obtain ⟨g, member, t, type, unfit⟩ := agree.mp (iff_of_true bound accepted) rfl (by decide)
  cases type
  rw [List.mem_singleton.mp member] at unfit
  revert unfit
  decide +kernel

end

end Gradual
