import Gradual.Proofs.Outcome

/-!
Contracts: what an action may rely on and how it may change the state. An action that is put together
from others keeps to what they all keep to, so for a contract it is enough to look at the changes
that the rules of the checker are made of.
-/

namespace Gradual

/-- What an action may rely on, and what it may change. -/
structure Contract where
  before : State → Prop
  frame : State → State → Prop
  refl (s : State) : frame s s
  trans {s t u : State} : frame s t → frame t u → frame s u
  /-- The action may be followed by another. -/
  stable {s t : State} : before s → frame s t → before t

namespace Check

/-- The action keeps to the contract, and its answer has the property. -/
def Keeps {α : Type} (c : Contract) (x : Check α) (post : α → Prop := fun _ => True) : Prop :=
  ∀ env s, c.before s → c.frame s (x.outcome env s).2 ∧ post (x.outcome env s).1

namespace Keeps

variable {α β : Type} {c : Contract} {x : Check α} {post : α → Prop} {f : α → Check β}
  {goal : β → Prop}

theorem pure {a : α} (h : post a) : Keeps c (pure a : Check α) post := fun _ s _ => ⟨c.refl s, h⟩

theorem bind (first : Keeps c x post) (second : ∀ a, post a → Keeps c (f a) goal) :
    Keeps c (x >>= f) goal := by
  intro env s before
  obtain ⟨frame, answer⟩ := first env s before
  obtain ⟨frame', answer'⟩ := second _ answer env _ (c.stable before frame)
  exact ⟨c.trans frame frame', answer'⟩

theorem imp {weaker : α → Prop} (h : Keeps c x post) (implies : ∀ a, post a → weaker a) :
    Keeps c x weaker :=
  fun env s before => ⟨(h env s before).1, implies _ (h env s before).2⟩

theorem trivial (h : Keeps c x post) : Keeps c x := h.imp fun _ _ => True.intro

/-- An answer of which nothing is asked. -/
theorem done {a : α} : Keeps c (Pure.pure a : Check α) := .pure True.intro

/-- An action that does not depend on what the answer before it is like. -/
theorem seq (first : Keeps c x) (second : ∀ a, Keeps c (f a) goal) : Keeps c (x >>= f) goal :=
  first.bind fun a _ => second a

theorem discard (h : Keeps c x) : Keeps c (discard x) := h.seq fun _ => .done

/-- An action that only reads. -/
theorem of_reads (h : ∀ env s, (x.outcome env s).2 = s) : Keeps c x := by
  intro env s _
  rw [h]
  exact ⟨c.refl s, True.intro⟩

theorem of_frame (h : ∀ env s, c.frame s (x.outcome env s).2) : Keeps c x :=
  fun env s _ => ⟨h env s, True.intro⟩

/-! ### Lists -/

theorem mapM {γ : Type} {xs : List γ} {f : γ → Check β} (h : ∀ y ∈ xs, Keeps c (f y) goal) :
    Keeps c (xs.mapM f) fun bs => ∀ b ∈ bs, goal b := by
  induction xs with
  | nil => exact .pure (by simp)
  | cons y xs ih =>
    rw [List.mapM_cons]
    apply (h y (by simp)).bind
    intro b hb
    refine (ih fun z hz => h z (by simp [hz])).bind fun bs hbs => ?_
    exact .pure (by simpa using ⟨hb, hbs⟩)

theorem mapM_trivial {γ : Type} {xs : List γ} {f : γ → Check β} (h : ∀ y ∈ xs, Keeps c (f y)) :
    Keeps c (xs.mapM f) := (mapM h).trivial

theorem forM {γ : Type} {xs : List γ} {f : γ → Check Unit} (h : ∀ y ∈ xs, Keeps c (f y)) :
    Keeps c (xs.forM f) := by
  induction xs with
  | nil => exact .pure True.intro
  | cons y xs ih =>
    exact (h y (by simp)).bind fun _ _ => ih fun z hz => h z (by simp [hz])

theorem foldlM {γ : Type} {xs : List γ} {f : β → γ → Check β} {b : β}
    (h : ∀ b, ∀ y ∈ xs, Keeps c (f b y)) : Keeps c (xs.foldlM f b) := by
  induction xs generalizing b with
  | nil => exact .pure True.intro
  | cons y xs ih =>
    rw [List.foldlM_cons]
    exact (h b y (by simp)).bind fun b _ => ih fun b z hz => h b z (by simp [hz])

/-- A loop over a list that does not leave early. -/
theorem forIn {γ : Type} {xs : List γ} {f : γ → PUnit → Check (ForInStep PUnit)}
    (h : ∀ y ∈ xs, Keeps c (f y PUnit.unit) (· = .yield PUnit.unit)) :
    Keeps c (forIn xs PUnit.unit f) := by
  induction xs with
  | nil => exact .pure True.intro
  | cons y xs ih =>
    rw [List.forIn_cons]
    apply (h y (by simp)).bind
    intro _ answer
    subst answer
    exact ih fun z hz => h z (by simp [hz])

/-- One round of a loop that goes on with the next. -/
theorem yielding (h : Keeps c x post) :
    Keeps c (x >>= fun _ => Pure.pure (ForInStep.yield PUnit.unit)) (· = .yield PUnit.unit) :=
  h.bind fun _ _ => .pure rfl

end Keeps

variable {c : Contract}

/-! ### What only reads -/

theorem scope_keeps : Keeps c scope := .of_reads fun _ _ => rfl

theorem get_keeps : Keeps c (get : Check State) := .of_reads fun _ _ => rfl

theorem read_keeps : Keeps c (read : Check Env) := .of_reads fun _ _ => rfl

theorem isDynamic_keeps : Keeps c isDynamic := .of_reads fun _ _ => rfl

theorem expectedType_keeps : Keeps c expectedType := .of_reads fun _ _ => rfl

theorem recorded_keeps {node : NodeId} : Keeps c (recorded node) := .of_reads fun _ _ => rfl

theorem typeOfVar_keeps {v : Var} : Keeps c (typeOfVar v) := .of_reads fun _ _ => rfl

theorem isSubtype_keeps {l r : Ty} : Keeps c (isSubtype l r) := .of_reads fun _ _ => rfl

theorem join_keeps {l r : Ty} : Keeps c (join l r) := .of_reads fun _ _ => rfl

theorem joinAll_keeps {ts : List Ty} : Keeps c (joinAll ts) := .of_reads fun _ _ => rfl

end Check
end Gradual
