import Gradual.TypeOrder.Subtype

/-!
How two signatures are compared: each formal of the one is taken by a formal of the other, and the
types of the two are compared. What takes what depends on the kinds and the names alone.
-/

namespace Gradual

/-! ### Searches that may break off -/

section Searches

variable {α : Type} {f g : α → Option Bool} {xs : List α} {b : Bool}

theorem allM_cons_eq (x : α) :
    (x :: xs).allM f = (f x).bind fun holds => if holds then xs.allM f else some false := by
  rw [List.allM]
  cases f x with
  | none => rfl
  | some holds => cases holds <;> rfl

theorem anyM_cons_eq (x : α) :
    (x :: xs).anyM f = (f x).bind fun holds => if holds then some true else xs.anyM f := by
  rw [List.anyM]
  cases f x with
  | none => rfl
  | some holds => cases holds <;> rfl

theorem allM_eq_some_true_iff : xs.allM f = some true ↔ ∀ x ∈ xs, f x = some true := by
  induction xs with
  | nil => simp [List.allM]
  | cons x xs ih =>
    rw [allM_cons_eq, List.forall_mem_cons, ← ih]
    cases f x with
    | none => simp
    | some holds => cases holds <;> simp

theorem exists_of_anyM_eq_some_true (h : xs.anyM f = some true) : ∃ x ∈ xs, f x = some true := by
  induction xs with
  | nil => cases h
  | cons x xs ih =>
    rw [anyM_cons_eq] at h
    obtain ⟨holds, first, rest⟩ := Option.bind_eq_some_iff.mp h
    cases holds with
    | true => exact ⟨x, List.mem_cons_self, first⟩
    | false =>
      obtain ⟨y, member, found⟩ := ih rest
      exact ⟨y, List.mem_cons_of_mem _ member, found⟩

theorem allM_isSome (h : ∀ x ∈ xs, (f x).isSome = true) : (xs.allM f).isSome = true := by
  induction xs with
  | nil => rfl
  | cons x xs ih =>
    obtain ⟨first, rest⟩ := List.forall_mem_cons.mp h
    obtain ⟨holds, answer⟩ := Option.isSome_iff_exists.mp first
    rw [allM_cons_eq, answer, Option.bind_some]
    cases holds with
    | true => exact ih rest
    | false => rfl

theorem anyM_isSome (h : ∀ x ∈ xs, (f x).isSome = true) : (xs.anyM f).isSome = true := by
  induction xs with
  | nil => rfl
  | cons x xs ih =>
    obtain ⟨first, rest⟩ := List.forall_mem_cons.mp h
    obtain ⟨holds, answer⟩ := Option.isSome_iff_exists.mp first
    rw [anyM_cons_eq, answer, Option.bind_some]
    cases holds with
    | true => rfl
    | false => exact ih rest

/-- A search in which every test is answered finds what there is. -/
theorem anyM_eq_some_true_of_mem (ends : ∀ x ∈ xs, (f x).isSome = true) {x : α} (member : x ∈ xs)
    (holds : f x = some true) : xs.anyM f = some true := by
  induction xs with
  | nil => cases member
  | cons y xs ih =>
    obtain ⟨first, rest⟩ := List.forall_mem_cons.mp ends
    rw [anyM_cons_eq]
    rcases List.mem_cons.mp member with rfl | later
    · rw [holds]
      rfl
    · obtain ⟨answer, answered⟩ := Option.isSome_iff_exists.mp first
      rw [answered, Option.bind_some]
      cases answer with
      | true => rfl
      | false => exact ih rest later

theorem allM_extend (more : ∀ x ∈ xs, ∀ b, f x = some b → g x = some b)
    (h : xs.allM f = some b) : xs.allM g = some b := by
  induction xs with
  | nil => exact h
  | cons x xs ih =>
    obtain ⟨first, rest⟩ := List.forall_mem_cons.mp more
    rw [allM_cons_eq] at h ⊢
    obtain ⟨holds, answer, later⟩ := Option.bind_eq_some_iff.mp h
    rw [first holds answer, Option.bind_some]
    cases holds with
    | true => exact ih rest later
    | false => exact later

theorem anyM_extend (more : ∀ x ∈ xs, ∀ b, f x = some b → g x = some b)
    (h : xs.anyM f = some b) : xs.anyM g = some b := by
  induction xs with
  | nil => exact h
  | cons x xs ih =>
    obtain ⟨first, rest⟩ := List.forall_mem_cons.mp more
    rw [anyM_cons_eq] at h ⊢
    obtain ⟨holds, answer, later⟩ := Option.bind_eq_some_iff.mp h
    rw [first holds answer, Option.bind_some]
    cases holds with
    | true => exact later
    | false => exact ih rest later

end Searches

/-- What holds of each item at its place. -/
theorem forall_getElem?_cons {α : Type} {holds : Nat → α → Prop} {x : α} {xs : List α} :
    (∀ (q : Nat) y, (x :: xs)[q]? = some y → holds q y) ↔
      holds 0 x ∧ ∀ (q : Nat) y, xs[q]? = some y → holds (q + 1) y := by
  constructor
  · exact fun h => ⟨h 0 x rfl, fun q y listed => h (q + 1) y listed⟩
  · rintro ⟨first, later⟩ (_ | q) y listed
    · cases listed
      exact first
    · exact later q y listed

/-- A key that occurs once finds its own entry. -/
theorem find?_eq_of_count_le_one {α β : Type} [BEq α] [LawfulBEq α] {xs : List (α × β)} {a : α}
    {b : β} (member : (a, b) ∈ xs) (once : (xs.map (·.1)).count a ≤ 1) :
    xs.find? (·.1 == a) = some (a, b) := by
  induction xs with
  | nil => cases member
  | cons x xs ih =>
    rw [List.map_cons, List.count_cons] at once
    rcases List.mem_cons.mp member with rfl | later
    · simp
    · have listed : 0 < (xs.map (·.1)).count a :=
        List.count_pos_iff.mpr (List.mem_map_of_mem later)
      have other : (x.1 == a) = false := by
        cases same : x.1 == a with
        | false => rfl
        | true =>
          rw [same] at once
          simp at once
          omega
      rw [List.find?_cons, other]
      exact ih later (by omega)

namespace Signature

/-- What takes the argument of a formal of that kind and name, if the fixed formals before it have
left `next` as the first one. -/
def taker? (l : Signature) (next : Option Ty) : ArgKind → Option String → Option Ty
  | .pos, _ | .opt, _ => next.or (l.typeOfKind? .star)
  | .star, _ => l.typeOfKind? .star
  | .named, name => (l.typeOfName? name).or (l.typeOfKind? .star2)
  | .star2, _ => l.typeOfKind? .star2

/-- What takes the arguments of formals of those kinds and names, one after the other. -/
def takersFrom (l : Signature) :
    (fixed : List Ty) → List (ArgKind × Option String) → List (Option Ty)
  | _, [] => []
  | fixed, (kind, name) :: rest =>
    l.taker? fixed.head? kind name ::
      l.takersFrom (if kind.isFixed then fixed.tail else fixed) rest

/-- What takes, in the signature `l`, the argument of each formal of `r`. -/
def takers (l r : Signature) : List (Option Ty) :=
  l.takersFrom l.fixedTypes (r.argKinds.zip r.argNames)

/-- The numbers of arguments that `r` takes are numbers that `l` takes. -/
def countsFit (l r : Signature) : Bool :=
  decide (l.minArgs ≤ r.minArgs) && (!r.isVarArg || l.isVarArg)
    && (decide (r.maxFixedArgs ≤ l.maxFixedArgs) || l.isVarArg)

/-- The fixed formals in front count how far the fixed formals of `l` are used up. -/
theorem getElem?_takersFrom (l : Signature) (fixed : List Ty)
    (ks : List (ArgKind × Option String)) (j : Nat) :
    (l.takersFrom fixed ks)[j]? =
      ks[j]?.map fun k => l.taker? fixed[(ks.take j).countP (·.1.isFixed)]? k.1 k.2 := by
  induction ks generalizing fixed j with
  | nil => rfl
  | cons k rest ih =>
    cases j with
    | zero => simp [takersFrom, List.head?_eq_getElem?]
    | succ j =>
      rw [takersFrom, List.getElem?_cons_succ, ih, List.getElem?_cons_succ, List.take_succ_cons,
        List.countP_cons]
      cases fixedKind : k.1.isFixed <;> simp [List.getElem?_tail]

theorem typeOfKind?_mem {s : Signature} {kind : ArgKind} {t : Ty} (h : s.typeOfKind? kind = some t) :
    t ∈ s.argTypes := by
  obtain ⟨p, found, rfl⟩ := Option.map_eq_some_iff.mp h
  exact (List.of_mem_zip (List.mem_of_find?_eq_some found)).2

/-- A kind that no other formal has is found with its own type. -/
theorem typeOfKind?_eq {s : Signature} {kind : ArgKind}
    (lengths : s.argKinds.length ≤ s.argTypes.length) (once : s.argKinds.count kind ≤ 1) {j : Nat}
    {t : Ty} (kinds : s.argKinds[j]? = some kind) (types : s.argTypes[j]? = some t) :
    s.typeOfKind? kind = some t := by
  have member : (kind, t) ∈ s.argKinds.zip s.argTypes :=
    List.mem_of_getElem? (List.getElem?_zip_eq_some.mpr ⟨kinds, types⟩)
  have keys : (s.argKinds.zip s.argTypes).map (·.1) = s.argKinds := List.map_fst_zip lengths
  rw [typeOfKind?, find?_eq_of_count_le_one member (by rw [keys]; exact once)]
  rfl

theorem typeOfName?_mem {s : Signature} {name : Option String} {t : Ty}
    (h : s.typeOfName? name = some t) : t ∈ s.argTypes := by
  cases name with
  | none => cases h
  | some name =>
    obtain ⟨p, found, rfl⟩ := Option.map_eq_some_iff.mp h
    exact (List.of_mem_zip (List.mem_of_find?_eq_some found)).2

theorem fixedTypes_subset (s : Signature) : s.fixedTypes ⊆ s.argTypes := by
  intro t member
  obtain ⟨p, kept, rfl⟩ := List.mem_map.mp member
  exact (List.of_mem_zip (List.mem_filter.mp kept).1).2

theorem taker?_mem {l : Signature} {next : Option Ty} {kind : ArgKind} {name : Option String} {t : Ty}
    (inside : ∀ u ∈ next, u ∈ l.argTypes) (h : l.taker? next kind name = some t) :
    t ∈ l.argTypes := by
  cases kind with
  | pos | opt => exact (Option.or_eq_some_iff.mp h).elim (inside t) fun h => typeOfKind?_mem h.2
  | star | star2 => exact typeOfKind?_mem h
  | named => exact (Option.or_eq_some_iff.mp h).elim typeOfName?_mem fun h => typeOfKind?_mem h.2

/-- Arguments are taken by formals of the signature. -/
theorem taker_mem_argTypes {l r : Signature} {t : Ty} (h : some t ∈ l.takers r) :
    t ∈ l.argTypes := by
  obtain ⟨j, at_j⟩ := List.mem_iff_getElem?.mp h
  rw [takers, getElem?_takersFrom] at at_j
  obtain ⟨k, -, taken⟩ := Option.map_eq_some_iff.mp at_j
  exact taker?_mem (fun u member => fixedTypes_subset l (List.mem_of_getElem? member)) taken

end Signature

namespace TypeOrder

variable {le : Ty → Ty → Option Bool} {l r : Signature}

/-- Compares the type of a formal with that of the formal that takes its argument. -/
def takenLe (le : Ty → Ty → Option Bool) (p : Ty × Option Ty) : Option Bool :=
  match p.2 with
  | none => some false
  | some taker => le p.1 taker

theorem takenLe_eq_some_true_iff {p : Ty × Option Ty} :
    takenLe le p = some true ↔ ∃ taker, p.2 = some taker ∧ le p.1 taker = some true := by
  obtain ⟨type, taker⟩ := p
  cases taker <;> simp [takenLe]

theorem formalsLe_cons_eq (fixed : List Ty) (type : Ty) (kind : ArgKind) (name : Option String)
    (rest : List (Ty × ArgKind × Option String)) :
    formalsLe le l fixed ((type, kind, name) :: rest) =
      (takenLe le (type, l.taker? fixed.head? kind name)).bind fun fits =>
        if fits then formalsLe le l (if kind.isFixed then fixed.tail else fixed) rest
        else some false := by
  have step (taker : Option Ty) (left : List Ty) :
      (match taker with
        | none => some false
        | some taker => (le type taker).bind fun fits =>
          if fits then formalsLe le l left rest else some false) =
      (takenLe le (type, taker)).bind fun fits =>
        if fits then formalsLe le l left rest else some false := by
    cases taker <;> rfl
  cases kind <;> exact step _ _

theorem formalsLe_zip_eq (fixed types : List Ty) (ks : List (ArgKind × Option String)) :
    formalsLe le l fixed (types.zip ks) = (types.zip (l.takersFrom fixed ks)).allM (takenLe le) := by
  induction types generalizing fixed ks with
  | nil => rfl
  | cons t ts ih =>
    cases ks with
    | nil => rfl
    | cons k ks =>
      rw [List.zip_cons_cons, formalsLe_cons_eq, Signature.takersFrom, List.zip_cons_cons,
        allM_cons_eq, ih]

/-- One after the other: who creates instances, the results, the numbers of arguments and the
formals. -/
theorem plainSignatureLe_eq :
    plainSignatureLe le l r =
      if !r.isTypeObject || l.isTypeObject then
        (le l.ret r.ret).bind fun fits =>
          if fits && l.countsFit r then (r.argTypes.zip (l.takers r)).allM (takenLe le)
          else some false
      else some false := by
  have answered (fits : Bool) (checked : Option Bool) :
      (if !fits then some false
        else if l.minArgs > r.minArgs then some false
        else if r.isVarArg && !l.isVarArg then some false
        else if l.maxFixedArgs < r.maxFixedArgs && !l.isVarArg then some false
        else checked) =
      if fits && l.countsFit r then checked else some false := by
    unfold Signature.countsFit
    grind
  rw [Signature.takers, ← formalsLe_zip_eq]
  unfold plainSignatureLe
  cases constructs : r.isTypeObject && !l.isTypeObject with
  | true =>
    have refused : (!r.isTypeObject || l.isTypeObject) = false := by grind
    rw [refused]
    rfl
  | false =>
    have allowed : (!r.isTypeObject || l.isTypeObject) = true := by grind
    rw [allowed, if_pos rfl]
    exact congrArg (le l.ret r.ret).bind (funext fun fits => answered fits _)

/-- What it takes for a signature to fit where another one is expected, given how types compare. -/
structure PlainFits (le : Ty → Ty → Option Bool) (l r : Signature) : Prop where
  constructs : r.isTypeObject = true → l.isTypeObject = true
  ret : le l.ret r.ret = some true
  counts : l.countsFit r = true
  formals : ∀ p ∈ r.argTypes.zip (l.takers r), ∃ taker, p.2 = some taker ∧ le p.1 taker = some true

theorem plainSignatureLe_eq_some_true_iff :
    plainSignatureLe le l r = some true ↔ PlainFits le l r := by
  rw [plainSignatureLe_eq]
  constructor
  · intro h
    cases allowed : !r.isTypeObject || l.isTypeObject with
    | false =>
      rw [allowed] at h
      cases h
    | true =>
      rw [allowed, if_pos rfl] at h
      obtain ⟨ret, answer, h⟩ := Option.bind_eq_some_iff.mp h
      cases both : ret && l.countsFit r with
      | false =>
        rw [both] at h
        cases h
      | true =>
        rw [both, if_pos rfl] at h
        obtain ⟨rfl, counts⟩ := Bool.and_eq_true_iff.mp both
        exact ⟨by grind, answer, counts, fun p member =>
          takenLe_eq_some_true_iff.mp (allM_eq_some_true_iff.mp h p member)⟩
  · intro fits
    have allowed : (!r.isTypeObject || l.isTypeObject) = true := by
      have constructs := fits.constructs
      grind
    rw [allowed, if_pos rfl, fits.ret, Option.bind_some, fits.counts]
    exact allM_eq_some_true_iff.mpr fun p member => takenLe_eq_some_true_iff.mpr (fits.formals p member)

end TypeOrder
end Gradual
