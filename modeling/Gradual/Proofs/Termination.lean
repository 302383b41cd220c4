import Gradual.Proofs.Steps
import Gradual.Proofs.Subtyping

/-!
Comparisons and joins that come to an end: as many steps suffice as two types weigh, for every weight
that gets less from a type to its parts and no greater where a type is seen as an instance. To be seen
as an instance of a base makes no type deeper, so the nesting is such a weight where no class that
tuples, functions and type objects fall back to has type arguments among its bases.
-/

namespace Gradual

/-! ### Nesting -/

section Nesting

variable (height : ClassId → Nat)

theorem Ty.depth_le_depthEach {t : Ty} {ts : List Ty} (h : t ∈ ts) :
    t.depth height ≤ depthEach height ts := by
  induction ts with
  | nil => cases h
  | cons u us ih =>
    rw [depthEach]
    rcases List.mem_cons.mp h with rfl | later
    · exact Nat.le_max_left _ _
    · exact Nat.le_trans (ih later) (Nat.le_max_right _ _)

theorem Signature.depth_le_depthSignatures {s : Signature} {ss : List Signature} (h : s ∈ ss) :
    s.depth height ≤ depthSignatures height ss := by
  induction ss with
  | nil => cases h
  | cons u us ih =>
    rw [depthSignatures]
    rcases List.mem_cons.mp h with rfl | later
    · exact Nat.le_max_left _ _
    · exact Nat.le_trans (ih later) (Nat.le_max_right _ _)

theorem Signature.depth_eq (s : Signature) :
    s.depth height = max (depthEach height s.argTypes) (s.ret.depth height) := by
  cases s
  rfl

theorem Ty.depth_typeVar (v : TypeVar) :
    (Ty.typeVar v).depth height = 1 + v.upperBound.depth height := by
  cases v
  rfl

theorem Ty.depth_pos (t : Ty) : 1 ≤ t.depth height := by
  cases t with
  | typeVar v =>
    rw [Ty.depth_typeVar]
    exact Nat.le_add_right _ _
  | any | void | noneType | unbound | error => exact Nat.le_refl 1
  | inst | callable | overloaded | tuple =>
    rw [Ty.depth]
    omega

section Substitution

variable {height} {f : Substitution} {d : Nat}

mutual

/-- What takes the places of type variables makes a type deeper by what it is deeper than they. -/
theorem Ty.depth_substitute_le
    (h : ∀ v u, f v = some u → u.depth height ≤ (Ty.typeVar v).depth height + d) :
    (t : Ty) → (t.substitute f).depth height ≤ t.depth height + d
  | .any | .void | .noneType | .unbound _ | .error => Nat.le_add_right _ _
  | .inst c n args => by
    have inner := depthEach_substitute_le h args
    rw [Ty.substitute, Ty.depth, Ty.depth]
    omega
  | .callable s => by
    have inner := Signature.depth_substitute_le h s
    rw [Ty.substitute, Ty.depth, Ty.depth]
    omega
  | .overloaded items => by
    have inner := depthSignatures_substitute_le h items
    rw [Ty.substitute, Ty.depth, Ty.depth]
    omega
  | .tuple items => by
    have inner := depthEach_substitute_le h items
    rw [Ty.substitute, Ty.depth, Ty.depth]
    omega
  | .typeVar v => by
    rw [Ty.substitute]
    cases replaced : f v with
    | none => exact Nat.le_add_right _ _
    | some u => exact h v u replaced

theorem depthEach_substitute_le
    (h : ∀ v u, f v = some u → u.depth height ≤ (Ty.typeVar v).depth height + d) :
    (ts : List Ty) → depthEach height (Ty.substituteEach f ts) ≤ depthEach height ts + d
  | [] => Nat.zero_le _
  | t :: ts => by
    have first := Ty.depth_substitute_le h t
    have others := depthEach_substitute_le h ts
    rw [Ty.substituteEach, depthEach, depthEach]
    omega

theorem Signature.depth_substitute_le
    (h : ∀ v u, f v = some u → u.depth height ≤ (Ty.typeVar v).depth height + d) :
    (s : Signature) → (Ty.substituteSignature f s).depth height ≤ s.depth height + d
  | ⟨argTypes, _, _, ret, _, _, _, _⟩ => by
    have args := depthEach_substitute_le h argTypes
    have result := Ty.depth_substitute_le h ret
    rw [Ty.substituteSignature, Signature.depth, Signature.depth]
    omega

theorem depthSignatures_substitute_le
    (h : ∀ v u, f v = some u → u.depth height ≤ (Ty.typeVar v).depth height + d) :
    (ss : List Signature) →
      depthSignatures height (Ty.substituteSignatures f ss) ≤ depthSignatures height ss + d
  | [] => Nat.zero_le _
  | s :: ss => by
    have first := Signature.depth_substitute_le h s
    have others := depthSignatures_substitute_le h ss
    rw [Ty.substituteSignatures, depthSignatures, depthSignatures]
    omega

end

end Substitution

theorem Signature.depth_erased_le (s : Signature) : s.erased.depth height ≤ s.depth height := by
  refine Signature.depth_substitute_le (d := 0) ?_ s
  intro v u replaced
  cases replaced
  rw [Ty.depth_typeVar]
  exact Nat.le_add_right _ _

/-- Type arguments make a type deeper by at most their own depth. -/
theorem Ty.depth_expandBy_le (t : Ty) (args : List Ty) :
    (t.expandBy args).depth height ≤ t.depth height + depthEach height args := by
  cases args with
  | nil => exact Nat.le_add_right _ _
  | cons a as =>
    refine Ty.depth_substitute_le ?_ t
    intro v u replaced
    have given := (Option.ite_none_right_eq_some.mp replaced).2
    have bound := Ty.depth_le_depthEach height (List.mem_of_getElem? given)
    omega

theorem depthEach_expandBy_le (ts args : List Ty) :
    depthEach height (ts.map (·.expandBy args)) ≤ depthEach height ts + depthEach height args := by
  induction ts with
  | nil => exact Nat.zero_le _
  | cons t ts ih =>
    have first := Ty.depth_expandBy_le height t args
    rw [List.map_cons, depthEach, depthEach]
    omega

/-- What a comparison of a type goes down to. -/
def Ty.parts : Ty → List Ty
  | .inst _ _ args => args
  | .callable s => s.ret :: s.argTypes
  | .overloaded items => items.map .callable
  | .tuple items => items
  | .typeVar v => [v.upperBound]
  | .any | .void | .noneType | .unbound _ | .error => []

theorem Ty.depth_lt_of_mem_parts {t u : Ty} (h : u ∈ t.parts) : u.depth height < t.depth height := by
  cases t with
  | inst c n args =>
    have lower : u.depth height ≤ depthEach height args := Ty.depth_le_depthEach height h
    rw [Ty.depth]
    omega
  | tuple items =>
    have lower : u.depth height ≤ depthEach height items := Ty.depth_le_depthEach height h
    rw [Ty.depth]
    omega
  | callable s =>
    rw [Ty.depth, s.depth_eq]
    rcases List.mem_cons.mp h with rfl | formal
    · omega
    · have lower := Ty.depth_le_depthEach height formal
      omega
  | overloaded items =>
    obtain ⟨s, member, rfl⟩ := List.mem_map.mp h
    have lower := Signature.depth_le_depthSignatures height member
    rw [Ty.depth, Ty.depth]
    omega
  | typeVar v =>
    rw [Ty.depth_typeVar, List.mem_singleton.mp h]
    omega
  | any | void | noneType | unbound | error => cases h

end Nesting

namespace TypeOrder

variable {o : TypeOrder}

/-- Each class is as high as its bases at least. -/
def HeightsCover (o : TypeOrder) : Prop :=
  ∀ c, ∀ base ∈ o.classes.bases c, o.height base.cls + depthEach o.height base.args ≤ o.height c

theorem HeightsCover.depth_view?_le (cover : o.HeightsCover) {i j : Instance} {c : ClassId}
    (h : o.classes.view? i c = some j) : j.toTy.depth o.height ≤ i.toTy.depth o.height := by
  refine ClassTable.viewWithin_induction
    (fun k => k.toTy.depth o.height ≤ i.toTy.depth o.height) ?_ h (Nat.le_refl _)
  intro k low base member
  have deeper := depthEach_expandBy_le o.height base.args k.args
  have lower := cover k.cls base member
  simp only [Instance.toTy, Instance.expandBy, Ty.depth] at low ⊢
  omega

theorem depth_instanceOf (c : ClassId) :
    (o.classes.instanceOf c []).toTy.depth o.height = 1 + o.height c := rfl

/-- The classes that types fall back to, as far as they exist. -/
def fallbackClasses (o : TypeOrder) : List (Option ClassId) :=
  [o.basic.tuple, o.basic.type, o.basic.function]

theorem exists_of_fallback? {t : Ty} {i : Instance} (h : o.fallback? t = some i) :
    ∃ k, i = o.classes.instanceOf k [] ∧ some k ∈ o.fallbackClasses := by
  have made {c : Option ClassId} (listed : c ∈ o.fallbackClasses) (made : o.instance? c = some i) :
      ∃ k, i = o.classes.instanceOf k [] ∧ some k ∈ o.fallbackClasses := by
    obtain ⟨k, rfl, rfl⟩ := Option.map_eq_some_iff.mp made
    exact ⟨k, rfl, listed⟩
  have tuple : o.basic.tuple ∈ o.fallbackClasses := by simp [fallbackClasses]
  have type : o.basic.type ∈ o.fallbackClasses := by simp [fallbackClasses]
  have function : o.basic.function ∈ o.fallbackClasses := by simp [fallbackClasses]
  unfold fallback? at h
  split at h
  · exact made tuple h
  · split at h
    · exact made type h
    · exact made function h
  · split at h
    · exact made type h
    · exact made function h
  · cases h

theorem height_le_fallbackHeight {k : ClassId} (h : some k ∈ o.fallbackClasses) :
    o.height k ≤ o.fallbackHeight := by
  simp only [fallbackClasses, List.mem_cons, List.not_mem_nil, or_false] at h
  rcases h with h | h | h <;>
    simp only [fallbackHeight, ← h, Option.map_some, Option.getD_some] <;> omega

/-! ### Weights -/

/-- A weight that gets less with every step down in a comparison. -/
structure Weighs (o : TypeOrder) (w : Ty → Nat) : Prop where
  part : ∀ t, ∀ u ∈ t.parts, w u < w t
  erased : ∀ s : Signature, w (.callable s.erased) ≤ w (.callable s)
  view : ∀ i c j, o.classes.view? i c = some j → w j.toTy ≤ w i.toTy
  fallback : ∀ t i, o.fallback? t = some i → w i.toTy ≤ w t
  pos : ∀ t, 1 ≤ w t

variable {w : Ty → Nat} {le : Ty → Ty → Option Bool} {n : Nat}

/-- All pairs of types that a question compares weigh at most `n`. -/
def Question.Within (w : Ty → Nat) (n : Nat) : Question → Prop
  | settled _ => True
  | pair l r => w l + w r ≤ n
  | oneOf items r => ∀ s ∈ items, w (.callable s) + w r ≤ n
  | eachOf l items => ∀ s ∈ items, w l + w (.callable s) ≤ n
  | signatures l r => w (.callable l) + w (.callable r) ≤ n + 1
  | args as bs => ∀ a ∈ as, ∀ b ∈ bs, w a + w b ≤ n
  | instances i j => ∀ k ∈ i, w k.toTy + w j.toTy ≤ n + 1

theorem question_within (weighs : o.Weighs w) {l r : Ty} (h : w l + w r ≤ n + 1) :
    (o.question l r).Within w n := by
  have left {l u r : Ty} (part : u ∈ l.parts) (h : w l + w r ≤ n + 1) : w u + w r ≤ n := by
    have less := weighs.part l u part
    omega
  have right {l r u : Ty} (part : u ∈ r.parts) (h : w l + w r ≤ n + 1) : w l + w u ≤ n := by
    have less := weighs.part r u part
    omega
  have fallback (t : Ty) (j : Instance) (h : w t + w j.toTy ≤ n + 1) :
      (Question.instances (o.fallback? t) j).Within w n := by
    intro k fallen
    have lower := weighs.fallback t k fallen
    omega
  have bounded (v : TypeVar) (r : Ty) (h : w (.typeVar v) + w r ≤ n + 1) :
      (Question.pair v.upperBound r).Within w n := left List.mem_cons_self h
  unfold question
  split
  · trivial
  · split
    case h_1 | h_2 | h_3 | h_6 | h_13 => trivial
    case h_4 =>
      split
      · trivial
      · exact bounded _ _ h
    case h_5 => exact bounded _ _ h
    case h_7 => exact fun s member => left (List.mem_map_of_mem member) h
    case h_8 => exact fun s member => right (List.mem_map_of_mem member) h
    case h_9 => exact h
    case h_10 as bs _ =>
      split
      · intro a first b second
        have less : w b < w (.tuple bs) := weighs.part (.tuple bs) b second
        have lower := left (l := .tuple _) first h
        omega
      · trivial
    case h_11 =>
      intro k same
      cases same
      exact h
    case h_12 => exact fallback _ _ h

theorem argsLe_isSome {as bs : List Ty} (ends : ∀ a ∈ as, ∀ b ∈ bs, (le a b).isSome = true) :
    (argsLe le as bs).isSome = true :=
  allM_isSome fun _ member => ends _ (List.of_mem_zip member).1 _ (List.of_mem_zip member).2

theorem plainSignatureLe_isSome {l r : Signature} (result : (le l.ret r.ret).isSome = true)
    (formals : ∀ t ∈ r.argTypes, ∀ u ∈ l.argTypes, (le t u).isSome = true) :
    (plainSignatureLe le l r).isSome = true := by
  rw [plainSignatureLe_eq]
  split
  · obtain ⟨fits, answer⟩ := Option.isSome_iff_exists.mp result
    rw [answer, Option.bind_some]
    split
    · refine allM_isSome fun p member => ?_
      obtain ⟨type, taker⟩ := p
      obtain ⟨first, second⟩ := List.of_mem_zip member
      cases taker with
      | none => rfl
      | some taker => exact formals type first taker (Signature.taker_mem_argTypes second)
    · rfl
  · rfl

/-- Two instances are compared by type arguments that weigh less than they do. -/
theorem instanceLe_isSome (weighs : o.Weighs w)
    (ends : ∀ s t, w s + w t ≤ n → (le s t).isSome = true) {i j : Instance}
    (h : w i.toTy + w j.toTy ≤ n + 1) : (o.instanceLe le i j).isSome = true := by
  unfold instanceLe
  split
  · rename_i view seen
    have lower := weighs.view _ _ _ seen
    refine argsLe_isSome fun a first b second => ends a b ?_
    have left := weighs.part view.toTy a first
    have right := weighs.part j.toTy b second
    omega
  · rfl

theorem Question.answer_isSome (weighs : o.Weighs w)
    (ends : ∀ s t, w s + w t ≤ n → (le s t).isSome = true) {q : Question} (h : q.Within w n) :
    (q.answer o le).isSome = true := by
  cases q with
  | settled => rfl
  | pair l r => exact ends l r h
  | oneOf items r => exact anyM_isSome fun s member => ends _ _ (h s member)
  | eachOf l items => exact allM_isSome fun s member => ends _ _ (h s member)
  | signatures l r =>
    have plain {l r : Signature} (h : w (.callable l) + w (.callable r) ≤ n + 1) :
        (plainSignatureLe le l r).isSome = true := by
      refine plainSignatureLe_isSome (ends _ _ ?_) fun t formal u taker => ends t u ?_
      · have left := weighs.part (.callable l) _ List.mem_cons_self
        have right := weighs.part (.callable r) _ List.mem_cons_self
        omega
      · have left := weighs.part (.callable r) t (List.mem_cons_of_mem _ formal)
        have right := weighs.part (.callable l) u (List.mem_cons_of_mem _ taker)
        omega
    have lower := weighs.erased l
    have lower' := weighs.erased r
    have bound : w (.callable l) + w (.callable r) ≤ n + 1 := h
    simp only [answer, signatureLe]
    split
    · exact plain bound
    · exact plain (by omega)
  | args as bs => exact argsLe_isSome fun a first b second => ends a b (h a first b second)
  | instances i j =>
    cases i with
    | none => rfl
    | some i => exact instanceLe_isSome weighs ends (h i rfl)

namespace Weighs

/-- As many steps as the two types weigh suffice. -/
theorem subtypeWithin_isSome (weighs : o.Weighs w) {steps : Nat} {l r : Ty}
    (enough : w l + w r ≤ steps) : (o.subtypeWithin steps l r).isSome = true := by
  induction steps generalizing l r with
  | zero =>
    have heavy := weighs.pos l
    omega
  | succ steps ih =>
    rw [subtypeWithin_succ]
    exact Question.answer_isSome weighs (fun s t enough => ih enough) (question_within weighs enough)

theorem properWithin_isSome (weighs : o.Weighs w) {steps : Nat} {l r : Ty}
    (enough : w l + w r ≤ steps) : (o.properWithin steps l r).isSome = true := by
  induction steps generalizing l r with
  | zero =>
    have heavy := weighs.pos l
    omega
  | succ steps ih =>
    have ends (s t : Ty) (h : w s + w t ≤ steps) : (o.properWithin steps s t).isSome = true := ih h
    unfold properWithin
    split
    case h_1 => exact instanceLe_isSome weighs ends enough
    case h_2 as bs =>
      split
      · refine argsLe_isSome fun a first b second => ends a b ?_
        have left := weighs.part (.tuple as) a first
        have right := weighs.part (.tuple bs) b second
        omega
      · rfl
    case h_3 =>
      split
      · rename_i i fallen
        have lower := weighs.fallback _ i fallen
        refine instanceLe_isSome weighs ends (Nat.le_trans ?_ enough)
        exact Nat.add_le_add_right lower _
      · rfl
    case h_4 => rfl

end Weighs

/-! ### Nesting as a weight -/

/-- Classes are as high as their bases at least, and types that fall back to a class get no deeper. -/
structure Grounded (o : TypeOrder) : Prop where
  bases : ∀ c, ∀ base ∈ o.classes.bases c,
    o.height base.cls + depthEach o.height base.args ≤ o.height c
  fallbacks : o.fallbackHeight = 0

theorem Grounded.weighs (grounded : o.Grounded) : o.Weighs (Ty.depth o.height) where
  part t u member := Ty.depth_lt_of_mem_parts o.height member
  erased s := by
    have lower := s.depth_erased_le o.height
    rw [Ty.depth, Ty.depth]
    omega
  view i c j seen := HeightsCover.depth_view?_le grounded.bases seen
  fallback t i fallen := by
    obtain ⟨k, rfl, listed⟩ := exists_of_fallback? fallen
    have low := height_le_fallbackHeight listed
    have deep := t.depth_pos o.height
    rw [grounded.fallbacks] at low
    rw [depth_instanceOf]
    omega
  pos t := t.depth_pos o.height

/-- Over classes that other types fall back to without type arguments every comparison comes to an
end. -/
theorem Grounded.ends (grounded : o.Grounded) (l r : Ty) : o.Ends l r := by
  refine grounded.weighs.subtypeWithin_isSome ?_
  unfold budget
  omega

/-- Two functions that quantify nothing are compared by their parts, within steps that suffice for
any two of them. -/
theorem subtype?_callable {l r : Signature} (plain : l.quantified = []) (plain' : r.quantified = []) :
    ∃ steps, o.subtype? (.callable l) (.callable r) = plainSignatureLe (o.subtypeWithin steps) l r ∧
      o.budget l.ret r.ret ≤ steps ∧ ∀ t ∈ r.argTypes, ∀ u ∈ l.argTypes, o.budget t u ≤ steps := by
  obtain ⟨steps, enough⟩ := Nat.exists_eq_add_one.mpr (o.budget_pos (.callable l) (.callable r))
  have asked : o.question (.callable l) (.callable r) = .signatures l r := rfl
  simp only [budget, Ty.depth, l.depth_eq, r.depth_eq] at enough
  refine ⟨steps, ?_, ?_, fun t formal u taker => ?_⟩
  · rw [subtype?, budget, Ty.depth, Ty.depth, l.depth_eq, r.depth_eq, enough, subtypeWithin_succ, asked,
      Question.answer, signatureLe, plain, plain']
    rfl
  · unfold budget
    omega
  · have left := Ty.depth_le_depthEach o.height taker
    have right := Ty.depth_le_depthEach o.height formal
    unfold budget
    omega

end TypeOrder
end Gradual
