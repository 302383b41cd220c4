import Mathlib.Data.List.Forall2

/-!
Agreement of two actions: run in states that are related, they give related answers and leave related
states. Actions that are put together in the same way from actions that agree agree as well.
-/

namespace Gradual

variable {ε σ α β α' β' : Type}

/-- Whatever related states they are run in, the answers and the states that are left are related. -/
def Agree (states : σ → σ → Prop) (answers : α → β → Prop) (x : ReaderT ε (StateM σ) α)
    (y : ReaderT ε (StateM σ) β) : Prop :=
  ∀ e s t, states s t →
    answers ((x.run e).run s).1 ((y.run e).run t).1 ∧ states ((x.run e).run s).2 ((y.run e).run t).2

/-- Lists that are related item by item are related pair by pair. -/
theorem forall₂_zip_zip {R : α → α' → Prop} {S : β → β' → Prop} {xs : List α} {xs' : List α'}
    {ys : List β} {ys' : List β'} (first : List.Forall₂ R xs xs') (second : List.Forall₂ S ys ys') :
    List.Forall₂ (fun p q => R p.1 q.1 ∧ S p.2 q.2) (xs.zip ys) (xs'.zip ys') := by
  induction first generalizing ys ys' with
  | nil => exact .nil
  | cons head _ ih =>
    cases second with
    | nil => exact .nil
    | cons head' rest => exact .cons ⟨head, head'⟩ (ih rest)

namespace Agree

variable {states : σ → σ → Prop} {answers : α → β → Prop} {goal : α' → β' → Prop}
  {x : ReaderT ε (StateM σ) α} {y : ReaderT ε (StateM σ) β} {f : α → ReaderT ε (StateM σ) α'}
  {g : β → ReaderT ε (StateM σ) β'}

theorem pure {a : α} {b : β} (h : answers a b) :
    Agree states answers (Pure.pure a : ReaderT ε (StateM σ) α) (Pure.pure b) :=
  fun _ _ _ related => ⟨h, related⟩

theorem bind (first : Agree states answers x y)
    (next : ∀ a b, answers a b → Agree states goal (f a) (g b)) :
    Agree states goal (x >>= f) (y >>= g) := by
  intro e s t related
  obtain ⟨answered, left⟩ := first e s t related
  exact next _ _ answered e _ _ left

/-- The answers are the same. -/
theorem seq {y : ReaderT ε (StateM σ) α} {g : α → ReaderT ε (StateM σ) β'}
    (first : Agree states Eq x y) (next : ∀ a, Agree states goal (f a) (g a)) :
    Agree states goal (x >>= f) (y >>= g) :=
  first.bind fun a _ same => same ▸ next a

theorem imp {weaker : α → β → Prop} (h : Agree states answers x y)
    (implies : ∀ a b, answers a b → weaker a b) : Agree states weaker x y := by
  intro e s t related
  obtain ⟨answered, left⟩ := h e s t related
  exact ⟨implies _ _ answered, left⟩

theorem done {a : α} : Agree states Eq (Pure.pure a : ReaderT ε (StateM σ) α) (Pure.pure a) :=
  .pure rfl

/-- The last part of an action. -/
theorem last {p : α → α'} {q : β → β'} (h : Agree states answers x y)
    (make : ∀ a b, answers a b → goal (p a) (q b)) :
    Agree states goal (x >>= fun a => Pure.pure (p a)) (y >>= fun b => Pure.pure (q b)) :=
  h.bind fun a b answered => .pure (make a b answered)

theorem discard (h : Agree states answers x y) : Agree states Eq (discard x) (discard y) :=
  h.last fun _ _ _ => rfl

/-! ### Lists -/

variable {γ δ : Type} {xs : List γ} {ys : List δ}

theorem mapM {f : γ → ReaderT ε (StateM σ) α} {g : δ → ReaderT ε (StateM σ) β}
    (h : List.Forall₂ (fun c d => Agree states answers (f c) (g d)) xs ys) :
    Agree states (List.Forall₂ answers) (xs.mapM f) (ys.mapM g) := by
  induction h with
  | nil => exact .pure .nil
  | cons first _ ih =>
    rw [List.mapM_cons, List.mapM_cons]
    exact first.bind fun a b answered => ih.last fun as bs all => .cons answered all

/-- Items with the same answers. -/
theorem mapM_eq {f : γ → ReaderT ε (StateM σ) α} {g : δ → ReaderT ε (StateM σ) α}
    (h : List.Forall₂ (fun c d => Agree states Eq (f c) (g d)) xs ys) :
    Agree states Eq (xs.mapM f) (ys.mapM g) := by
  refine (mapM h).imp fun as bs all => ?_
  rwa [List.forall₂_eq_eq_eq] at all

theorem mapM_same {f g : γ → ReaderT ε (StateM σ) α} (h : ∀ c ∈ xs, Agree states Eq (f c) (g c)) :
    Agree states Eq (xs.mapM f) (xs.mapM g) := mapM_eq (List.forall₂_same.mpr h)

/-- Items that are made from others, with answers that are made from theirs. -/
theorem mapM_map {f : γ → ReaderT ε (StateM σ) α} {g : δ → ReaderT ε (StateM σ) β} {φ : γ → δ}
    {make : α → β} (h : ∀ c ∈ xs, Agree states (fun a b => b = make a) (f c) (g (φ c))) :
    Agree states (fun as bs => bs = as.map make) (xs.mapM f) ((xs.map φ).mapM g) := by
  have items : List.Forall₂ (fun c d => Agree states (fun a b => b = make a) (f c) (g d)) xs
      (xs.map φ) := by
    rw [List.forall₂_map_right_iff, List.forall₂_same]
    exact h
  refine (mapM items).imp fun as bs all => ?_
  induction all with
  | nil => rfl
  | cons first _ ih => rw [first, ih, List.map_cons]

theorem forM {f : γ → ReaderT ε (StateM σ) PUnit} {g : δ → ReaderT ε (StateM σ) PUnit}
    (h : List.Forall₂ (fun c d => Agree states Eq (f c) (g d)) xs ys) :
    Agree states Eq (xs.forM f) (ys.forM g) := by
  induction h with
  | nil => exact .done
  | cons first _ ih => exact first.seq fun _ => ih

/-- A round of a loop goes on with the next. -/
def Continues (r r' : ForInStep PUnit) : Prop := r = .yield PUnit.unit ∧ r' = .yield PUnit.unit

/-- Loops that do not leave early. -/
theorem forIn {f : γ → PUnit → ReaderT ε (StateM σ) (ForInStep PUnit)}
    {g : δ → PUnit → ReaderT ε (StateM σ) (ForInStep PUnit)}
    (h : List.Forall₂ (fun c d => Agree states Continues (f c PUnit.unit) (g d PUnit.unit)) xs ys) :
    Agree states Eq (ForIn.forIn xs PUnit.unit f) (ForIn.forIn ys PUnit.unit g) := by
  induction h with
  | nil => exact .done
  | cons first _ ih =>
    rw [List.forIn_cons, List.forIn_cons]
    apply first.bind
    rintro _ _ ⟨rfl, rfl⟩
    exact ih

/-- One round of a loop that goes on with the next. -/
theorem yielding (h : Agree states answers x y) :
    Agree states Continues (x >>= fun _ => Pure.pure (ForInStep.yield PUnit.unit))
      (y >>= fun _ => Pure.pure (ForInStep.yield PUnit.unit)) :=
  h.last fun _ _ _ => ⟨rfl, rfl⟩

theorem foldlM {f : α → γ → ReaderT ε (StateM σ) α} {g : α → δ → ReaderT ε (StateM σ) α} {a : α}
    (h : List.Forall₂ (fun c d => ∀ a, Agree states Eq (f a c) (g a d)) xs ys) :
    Agree states Eq (xs.foldlM f a) (ys.foldlM g a) := by
  induction h generalizing a with
  | nil => exact .done
  | cons first _ ih =>
    rw [List.foldlM_cons, List.foldlM_cons]
    exact (first a).seq fun _ => ih

end Agree
end Gradual
