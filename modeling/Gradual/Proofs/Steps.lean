import Gradual.Proofs.Signatures

/-!
How many steps a comparison of types takes. With more steps it answers the same, so a comparison that
comes to an end answers what is the case, whatever steps it is given to spare.
-/

namespace Gradual.TypeOrder

variable {le le' : Ty → Ty → Option Bool} {l r : Signature} {b : Bool}

/-- Whatever the one comparison answers, the other answers too. -/
def Extends (le' le : Ty → Ty → Option Bool) : Prop := ∀ s t b, le s t = some b → le' s t = some b

/-- A choice between answers that are kept keeps them. -/
theorem choice_extend {c : Prop} [Decidable c] {x y x' y' : Option Bool}
    (first : x = some b → x' = some b) (other : y = some b → y' = some b)
    (h : (if c then x else y) = some b) : (if c then x' else y') = some b := by
  by_cases chosen : c
  · rw [if_pos chosen] at h ⊢
    exact first h
  · rw [if_neg chosen] at h ⊢
    exact other h

namespace Extends

theorem takenLe (more : Extends le' le) {p : Ty × Option Ty} (h : TypeOrder.takenLe le p = some b) :
    TypeOrder.takenLe le' p = some b := by
  obtain ⟨type, taker⟩ := p
  cases taker with
  | none => exact h
  | some taker => exact more _ _ _ h

theorem plainSignatureLe (more : Extends le' le) (h : TypeOrder.plainSignatureLe le l r = some b) :
    TypeOrder.plainSignatureLe le' l r = some b := by
  rw [plainSignatureLe_eq] at h ⊢
  refine choice_extend (fun h => ?_) id h
  obtain ⟨fits, answer, h⟩ := Option.bind_eq_some_iff.mp h
  rw [more _ _ _ answer, Option.bind_some]
  exact choice_extend (allM_extend fun _ _ _ => more.takenLe) id h

theorem signatureLe (more : Extends le' le) (h : TypeOrder.signatureLe le l r = some b) :
    TypeOrder.signatureLe le' l r = some b :=
  choice_extend more.plainSignatureLe more.plainSignatureLe h

theorem argsLe (more : Extends le' le) {as bs : List Ty} (h : TypeOrder.argsLe le as bs = some b) :
    TypeOrder.argsLe le' as bs = some b :=
  allM_extend (fun p _ b answer => more p.1 p.2 b answer) h

theorem instanceLe {o : TypeOrder} {i j : Instance} (more : Extends le' le)
    (h : o.instanceLe le i j = some b) : o.instanceLe le' i j = some b := by
  unfold TypeOrder.instanceLe at h ⊢
  cases seen : o.classes.view? i j.cls with
  | none =>
    rw [seen] at h
    exact h
  | some view =>
    rw [seen] at h
    exact more.argsLe h

end Extends

/-- What a comparison of two types comes down to. -/
inductive Question where
  | settled (b : Bool)
  | pair (l r : Ty)
  | oneOf (items : List Signature) (r : Ty)
  | eachOf (l : Ty) (items : List Signature)
  | signatures (l r : Signature)
  | args (as bs : List Ty)
  /-- The first instance may be missing. -/
  | instances (i : Option Instance) (j : Instance)

/-- The answer to a question, given how types compare. -/
def Question.answer (o : TypeOrder) (le : Ty → Ty → Option Bool) : Question → Option Bool
  | settled b => some b
  | pair l r => le l r
  | oneOf items r => items.anyM fun s => le (.callable s) r
  | eachOf l items => items.allM fun s => le l (.callable s)
  | signatures l r => signatureLe le l r
  | args as bs => argsLe le as bs
  | instances i j =>
    match i with
    | some i => o.instanceLe le i j
    | none => some false

/-- The question that decides whether one type is a subtype of another. -/
def question (o : TypeOrder) (l r : Ty) : Question :=
  if l.isDynamic || r.isDynamic then .settled true
  else
    match l, r with
    | .void, r => .settled r.isVoid
    | _, .void => .settled false
    | .noneType, _ => .settled true
    | .typeVar v, .typeVar w => if v.id = w.id then .settled true else .pair v.upperBound r
    | .typeVar v, r => .pair v.upperBound r
    | _, .typeVar _ => .settled false
    | .overloaded items, r => .oneOf items r
    | l, .overloaded items => .eachOf l items
    | .callable s, .callable t => .signatures s t
    | .tuple as, .tuple bs => if as.length = bs.length then .args as bs else .settled false
    | .inst c n as, .inst d m bs => .instances (some ⟨c, n, as⟩) ⟨d, m, bs⟩
    | l, .inst d m bs => .instances (o.fallback? l) ⟨d, m, bs⟩
    | _, _ => .settled false

variable {o : TypeOrder}

theorem subtypeWithin_succ (steps : Nat) (l r : Ty) :
    o.subtypeWithin (steps + 1) l r = (o.question l r).answer o (o.subtypeWithin steps) := by
  unfold subtypeWithin question
  by_cases dynamic : (l.isDynamic || r.isDynamic) = true
  · rw [if_pos dynamic, if_pos dynamic]
    rfl
  · rw [if_neg dynamic, if_neg dynamic]
    cases l <;> cases r <;> first | rfl | (dsimp only; split <;> rfl)

theorem Extends.answer (more : Extends le' le) {q : Question} (h : q.answer o le = some b) :
    q.answer o le' = some b := by
  cases q with
  | settled => exact h
  | pair l r => exact more l r b h
  | oneOf => exact anyM_extend (fun _ _ _ answer => more _ _ _ answer) h
  | eachOf => exact allM_extend (fun _ _ _ answer => more _ _ _ answer) h
  | signatures => exact more.signatureLe h
  | args => exact more.argsLe h
  | instances i j =>
    cases i with
    | some i => exact more.instanceLe h
    | none => exact h

/-- One more step changes no answer. -/
theorem subtypeWithin_succ_extends (steps : Nat) :
    Extends (o.subtypeWithin (steps + 1)) (o.subtypeWithin steps) := by
  induction steps with
  | zero =>
    intro l r b answer
    cases answer
  | succ steps ih =>
    intro l r b answer
    rw [subtypeWithin_succ] at answer ⊢
    exact ih.answer answer

theorem subtypeWithin_extends {steps more : Nat} (h : steps ≤ more) :
    Extends (o.subtypeWithin more) (o.subtypeWithin steps) := by
  induction h with
  | refl => exact fun _ _ _ answer => answer
  | step _ ih => exact fun l r b answer => subtypeWithin_succ_extends _ l r b (ih l r b answer)

/-- The comparison of the two types comes to an end. -/
def Ends (o : TypeOrder) (l r : Ty) : Prop := (o.subtype? l r).isSome = true

theorem subtype?_of_isSubtype {l r : Ty} (h : o.isSubtype l r = true) :
    o.subtype? l r = some true := by
  unfold isSubtype at h
  cases answer : o.subtype? l r with
  | none => simp [answer] at h
  | some b => exact congrArg some (by simpa [answer] using h)

theorem Ends.within {l r : Ty} {steps : Nat} (ends : o.Ends l r) (enough : o.budget l r ≤ steps) :
    (o.subtypeWithin steps l r).isSome = true := by
  obtain ⟨b, known⟩ := Option.isSome_iff_exists.mp ends
  exact Option.isSome_of_eq_some (subtypeWithin_extends enough _ _ _ known)

/-- With steps to spare, a comparison that comes to an end answers what is the case. -/
theorem isSubtype_iff_within {l r : Ty} {steps : Nat} (ends : o.Ends l r)
    (enough : o.budget l r ≤ steps) :
    o.isSubtype l r = true ↔ o.subtypeWithin steps l r = some true := by
  constructor
  · intro fits
    exact subtypeWithin_extends enough _ _ _ (subtype?_of_isSubtype fits)
  · intro answer
    obtain ⟨b, known⟩ := Option.isSome_iff_exists.mp ends
    have same : o.subtypeWithin steps l r = some b := subtypeWithin_extends enough _ _ _ known
    rw [isSubtype, known]
    exact Option.some.inj (same.symm.trans answer)

end Gradual.TypeOrder
