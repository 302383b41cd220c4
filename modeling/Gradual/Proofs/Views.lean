import Gradual.Proofs.Supertypes

/-!
Views of instances. The search for a view stops, and what it finds is found along bases that stand behind
no earlier base of the same class. So a view can be taken in steps exactly if an instance leads, along
such bases, to one instance of each class.
-/

namespace Gradual.ClassTable

variable {t : ClassTable} {i j k : Instance} {c d : ClassId}

/-! ### The search without its steps -/

mutual

/-- The search for the view of an instance, for as long as it takes. -/
inductive Views (t : ClassTable) (c : ClassId) : Instance → Option Instance → Prop
  | own {i : Instance} (same : i.cls = c) : Views t c i (some i)
  | outside {i : Instance} (other : i.cls ≠ c) (apart : t.derives i.cls c = false) : Views t c i none
  | behind {i : Instance} {result : Option Instance} (other : i.cls ≠ c)
    (derived : t.derives i.cls c = true)
    (found : ViewsAmong t c ((t.bases i.cls).map (·.expandBy i.args)) result) : Views t c i result

/-- The search through instances, one after the other. -/
inductive ViewsAmong (t : ClassTable) (c : ClassId) : List Instance → Option Instance → Prop
  | nil : ViewsAmong t c [] none
  | found {i j : Instance} {is : List Instance} (seen : Views t c i (some j)) :
    ViewsAmong t c (i :: is) (some j)
  | next {i : Instance} {is : List Instance} {result : Option Instance} (unseen : Views t c i none)
    (later : ViewsAmong t c is result) : ViewsAmong t c (i :: is) result

end

theorem viewsAmong_iff {is : List Instance} {result : Option Instance}
    (each : ∀ i ∈ is, ∀ r, t.Views c i r ↔ r = t.view? i c) :
    t.ViewsAmong c is result ↔ result = is.findSome? (t.view? · c) := by
  induction is with
  | nil =>
    rw [List.findSome?_nil]
    constructor
    · rintro ⟨⟩
      rfl
    · rintro rfl
      exact .nil
  | cons i is ih =>
    obtain ⟨first, others⟩ := List.forall_mem_cons.mp each
    rw [List.findSome?_cons]
    constructor
    · intro search
      cases search with
      | found seen => rw [← (first _).mp seen]
      | next unseen later =>
        rw [← (first _).mp unseen]
        exact (ih others).mp later
    · intro answer
      cases seen : t.view? i c with
      | none =>
        rw [seen] at answer
        exact .next ((first _).mpr seen.symm) ((ih others).mpr answer)
      | some j =>
        rw [seen] at answer
        cases answer
        exact .found ((first _).mpr seen.symm)

/-- The search stops, and answers as the one that counts its steps. -/
theorem views_iff (earlier : t.BasesEarlier) {result : Option Instance} :
    t.Views c i result ↔ result = t.view? i c := by
  induction n : i.cls using Nat.strongRecOn generalizing i result with
  | ind n ih =>
    by_cases same : i.cls = c
    · subst same
      rw [view?_self]
      constructor
      · intro search
        cases search with
        | own => rfl
        | outside other | behind other => exact absurd rfl other
      · rintro rfl
        exact .own rfl
    have among : t.ViewsAmong c ((t.bases i.cls).map (·.expandBy i.args)) result ↔
        result = ((t.bases i.cls).map (·.expandBy i.args)).findSome? (t.view? · c) := by
      refine viewsAmong_iff fun k member r => ?_
      obtain ⟨base, listed, rfl⟩ := List.mem_map.mp member
      exact ih base.cls (n ▸ earlier i.cls base listed) rfl
    rw [List.findSome?_map] at among
    rw [view?_of_ne earlier same]
    cases derived : t.derives i.cls c with
    | false =>
      constructor
      · intro search
        cases search with
        | own own => exact absurd own same
        | outside => rfl
        | behind _ derived' => simp [derived] at derived'
      · rintro rfl
        exact .outside same derived
    | true =>
      refine Iff.trans ?_ among
      constructor
      · intro search
        cases search with
        | own own => exact absurd own same
        | outside _ apart => simp [derived] at apart
        | behind _ _ found => exact found
      · exact .behind same derived

/-! ### The first base that leads to a class -/

section Leading

variable (lin : t.Linearized) (earlier : t.BasesEarlier)
include lin earlier

theorem view?_eq_of_first {before after : List Instance} {base : Instance} (known : i.cls < t.size)
    (listed : t.bases i.cls = before ++ base :: after)
    (apart : ∀ other ∈ before, t.derives other.cls c = false)
    (leads : t.derives base.cls c = true) : t.view? i c = t.view? (base.expandBy i.args) c := by
  have member : base ∈ t.bases i.cls := by simp [listed]
  have first := earlier i.cls base member
  obtain ⟨inside, reached⟩ := (derives_iff_reaches lin earlier).mp leads
  have other : i.cls ≠ c := Nat.ne_of_gt (Nat.lt_of_le_of_lt (reached.le earlier) first)
  have derived : t.derives i.cls c = true := (derives_iff_reaches lin earlier).mpr
    ⟨known, reaches_iff.mpr (.inr ⟨base, member, reached⟩)⟩
  have unseen : before.findSome? (fun other => t.view? (other.expandBy i.args) c) = none := by
    rw [List.findSome?_eq_none_iff]
    intro other listed'
    have below := earlier i.cls other (by simp [listed, listed'])
    have seen := isSome_view?_iff (i := other.expandBy i.args) (c := c) lin earlier
      (Nat.lt_trans below known)
    rw [← Option.not_isSome_iff_eq_none, seen]
    simpa [Instance.expandBy] using apart other listed'
  obtain ⟨j, seen⟩ := Option.isSome_iff_exists.mp
    ((isSome_view?_iff (i := base.expandBy i.args) lin earlier inside).mpr leads)
  rw [view?_of_ne earlier other, if_pos derived, listed, List.findSome?_append, unseen,
    List.findSome?_cons, seen]
  rfl

theorem exists_first_base (derived : t.derives d c = true) (other : d ≠ c) :
    ∃ before base after, t.bases d = before ++ base :: after ∧
      (∀ other ∈ before, t.derives other.cls c = false) ∧ t.derives base.cls c = true := by
  obtain ⟨base, member, leads⟩ := exists_base_of_derives lin earlier derived other
  have found : ((t.bases d).find? fun base => t.derives base.cls c).isSome = true :=
    List.find?_isSome.mpr ⟨base, member, leads⟩
  obtain ⟨base, found⟩ := Option.isSome_iff_exists.mp found
  obtain ⟨leads, before, after, listed, apart⟩ := List.find?_eq_some_iff_append.mp found
  exact ⟨before, base, after, listed, by simpa using apart, leads⟩

end Leading

/-! ### Ways along bases -/

/-- The second instance is a base of the first one, with its type arguments put in, and stands behind no
earlier base. -/
def Leads (t : ClassTable) (i j : Instance) : Prop :=
  ∃ before base after, t.bases i.cls = before ++ base :: after ∧
    (∀ other ∈ before, t.derives other.cls base.cls = false) ∧ j = base.expandBy i.args

/-- The one instance leads to the other in zero or more steps. -/
def Inherits (t : ClassTable) : Instance → Instance → Prop := Relation.ReflTransGen t.Leads

/-- The instance leads to no two instances of one class. -/
def Unambiguous (t : ClassTable) (i : Instance) : Prop :=
  ∀ j k, t.Inherits i j → t.Inherits i k → j.cls = k.cls → j = k

/-- The view of an instance as one of any class can be taken through any class in between. -/
def PathIndependent (t : ClassTable) (i : Instance) : Prop :=
  ∀ b ∈ t.mro i.cls, ∀ a ∈ t.mro b, (t.view? i b).bind (t.view? · a) = t.view? i a

theorem Inherits.reaches (inherits : t.Inherits i j) : t.Reaches i.cls j.cls := by
  induction inherits with
  | refl => exact .refl
  | tail _ leads ih =>
    obtain ⟨before, base, after, listed, -, rfl⟩ := leads
    exact ih.tail ⟨base, by simp [listed], rfl⟩

theorem unambiguous_of_behind_first (earlier : t.BasesEarlier)
    (behind : ∀ c, ∀ first ∈ (t.bases c).head?, ∀ base ∈ (t.bases c).tail,
      t.derives first.cls base.cls = true) : t.Unambiguous i := by
  -- The further bases are all passed over, so that there is one way only.
  have only : Relator.RightUnique t.Leads := by
    have first {i j : Instance} (leads : t.Leads i j) :
        ∃ base, (t.bases i.cls).head? = some base ∧ j = base.expandBy i.args := by
      obtain ⟨before, base, after, listed, apart, rfl⟩ := leads
      cases before with
      | nil => exact ⟨base, by rw [listed]; rfl, rfl⟩
      | cons head rest =>
        have covered := behind i.cls head (by rw [listed]; rfl) base (by rw [listed]; simp)
        simp [apart head List.mem_cons_self] at covered
    intro i j k left right
    obtain ⟨base, head, rfl⟩ := first left
    obtain ⟨other, head', rfl⟩ := first right
    rw [Option.some.inj (head.symm.trans head')]
  have lower {j k : Instance} (inherits : t.Inherits j k) (same : j.cls = k.cls) : j = k := by
    rcases Relation.ReflTransGen.cases_head inherits with rfl | ⟨m, ⟨_, base, _, listed, -, rfl⟩, rest⟩
    · rfl
    · have before := earlier j.cls base (by simp [listed])
      have back := (Inherits.reaches rest).le earlier
      exact absurd (Nat.lt_of_le_of_lt (same ▸ back) before) (Nat.lt_irrefl _)
  intro j k left right same
  rcases Relation.ReflTransGen.total_of_right_unique only left right with further | back
  · exact lower further same
  · exact (lower back same.symm).symm

section Ways

variable (lin : t.Linearized) (earlier : t.BasesEarlier)
include lin earlier

theorem Leads.view? (known : i.cls < t.size) (leads : t.Leads i j) : t.view? i j.cls = some j := by
  obtain ⟨before, base, after, listed, apart, rfl⟩ := leads
  have first := earlier i.cls base (by simp [listed])
  have own := derives_self lin earlier (Nat.lt_trans first known)
  exact (view?_eq_of_first lin earlier known listed apart own).trans (view?_self t (base.expandBy i.args))

theorem inherits_of_view? (known : i.cls < t.size) (seen : t.view? i c = some j) : t.Inherits i j := by
  induction n : i.cls using Nat.strongRecOn generalizing i with
  | ind n ih =>
    by_cases same : i.cls = c
    · subst same
      rw [view?_self] at seen
      cases seen
      exact .refl
    · have derived := (isSome_view?_iff lin earlier known).mp (Option.isSome_of_eq_some seen)
      obtain ⟨before, base, after, listed, apart, leads⟩ := exists_first_base lin earlier derived same
      have first := earlier i.cls base (by simp [listed])
      rw [view?_eq_of_first lin earlier known listed apart leads] at seen
      refine .head ⟨before, base, after, listed, fun other member => ?_, rfl⟩
        (ih base.cls (n ▸ first) (Nat.lt_trans first known) seen rfl)
      -- An earlier base with this one behind it would have led to the class before.
      by_contra behind
      have further := derives_trans lin earlier (by simpa using behind) leads
      simp [apart other member] at further

theorem Inherits.derives (known : i.cls < t.size) (inherits : t.Inherits i j) :
    t.derives i.cls j.cls = true :=
  (derives_iff_reaches lin earlier).mpr ⟨known, inherits.reaches⟩

theorem Inherits.view?_of_unambiguous (known : i.cls < t.size) (one : t.Unambiguous i)
    (inherits : t.Inherits i j) : t.view? i j.cls = some j := by
  obtain ⟨k, seen⟩ := Option.isSome_iff_exists.mp
    ((isSome_view?_iff lin earlier known).mpr (inherits.derives lin earlier known))
  have same := one j k inherits (inherits_of_view? lin earlier known seen) (view?_cls seen).symm
  rw [seen, same]

theorem Inherits.view?_of_pathIndependent (known : i.cls < t.size) (free : t.PathIndependent i)
    (inherits : t.Inherits i j) : t.view? i j.cls = some j := by
  induction inherits with
  | refl => exact view?_self t i
  | @tail j k inherits leads ih =>
    -- The last step is the view of what comes before it, which is taken on the way.
    have derived := Inherits.derives lin earlier known inherits
    have inside := Nat.lt_of_le_of_lt ((Inherits.reaches inherits).le earlier) known
    have step := leads.view? lin earlier inside
    have further := (isSome_view?_iff lin earlier inside).mp (Option.isSome_of_eq_some step)
    have through := free j.cls (derives_iff.mp derived) k.cls (derives_iff.mp further)
    rw [← through, ih, Option.bind_some, step]

theorem pathIndependent_iff (known : i.cls < t.size) : t.PathIndependent i ↔ t.Unambiguous i := by
  constructor
  · intro free j k first second same
    have seen := first.view?_of_pathIndependent lin earlier known free
    rw [same, second.view?_of_pathIndependent lin earlier known free] at seen
    exact (Option.some.inj seen).symm
  · intro one b behind a further
    obtain ⟨j, seen⟩ := Option.isSome_iff_exists.mp
      ((isSome_view?_iff lin earlier known).mpr (derives_iff.mpr behind))
    have first := inherits_of_view? lin earlier known seen
    have inside := Nat.lt_of_le_of_lt (first.reaches.le earlier) known
    rw [← view?_cls seen] at further
    obtain ⟨k, seen'⟩ := Option.isSome_iff_exists.mp
      ((isSome_view?_iff lin earlier inside).mpr (derives_iff.mpr further))
    have second := inherits_of_view? lin earlier inside seen'
    rw [seen, Option.bind_some, seen', ← view?_cls seen']
    exact (Inherits.view?_of_unambiguous lin earlier known one (first.trans second)).symm

end Ways

end Gradual.ClassTable

namespace Gradual

open Builder

/-- Over the classes that a builder can make, from bases that are there before, the search for the view of
an instance stops; it finds one exactly for the classes in the lookup order of the class of the instance,
and what it finds is an instance of the class that was asked for. -/
theorem view_found_on_lookup_order {made : List Expr} {b : Builder} (built : Built made b)
    (earlier : b.classes.BasesEarlier) (i : Instance) (known : i.cls < b.classes.size) (c : ClassId) :
    (∀ result, b.classes.Views c i result ↔ result = b.classes.view? i c) ∧
    ((b.classes.view? i c).isSome = true ↔ c ∈ b.classes.mro i.cls) ∧
    ∀ j, b.classes.view? i c = some j → j.cls = c := by
  refine ⟨fun result => ClassTable.views_iff earlier, ?_, fun j seen => ClassTable.view?_cls seen⟩
  rw [ClassTable.isSome_view?_iff built.linearized earlier known, ClassTable.derives_iff]

/-- A builder with a class whose bases, of which the first is behind the second, are in no consistent
order. -/
def Builder.crossed : Builder :=
  let item : Ty := .typeVar (.plain "T" 1 .any)
  let declared : Build Unit := do
    let root ← newPlainClass "Root" []
    let box ← newClass "Box" ["T"] []
    let full ← newClass "Full" ["T"] [⟨box, "builtins.Box", [item]⟩]
    discard <| newClass "Crossed" ["T"]
      [⟨box, "builtins.Box", [.inst root "builtins.Root" []]⟩, ⟨full, "builtins.Full", [item]⟩]
  (declared.run .bare).2

theorem Builder.crossed_built : Built [] .crossed :=
  (Declares.newPlainClass.bind fun _ => Declares.newClass.bind fun _ => Declares.newClass.bind fun _ =>
    Declares.newClass.discard) [] .bare .bare

/-- Type arguments may be missing or too many. -/
theorem crossed_views :
    let t := Builder.crossed.classes
    let many : Instance := ⟨3, "builtins.Crossed", [.noneType, .void]⟩
    let bare : Instance := ⟨3, "builtins.Crossed", []⟩
    t.mro 3 = [3, 1, 2] ∧ (∃ j, t.view? many 2 = some j ∧ j.cls = 2) ∧ (t.view? bare 1).isSome = true ∧
      t.view? many 0 = none ∧ t.Views 1 many (t.view? many 1) := by
  intro t many bare
  have order : t.mro 3 = [3, 1, 2] := by decide +kernel
  have earlier : t.BasesEarlier := by decide +kernel
  have known : many.cls < t.size := by decide +kernel
  obtain ⟨-, full, seen⟩ := view_found_on_lookup_order Builder.crossed_built earlier many known 2
  obtain ⟨j, found⟩ := Option.isSome_iff_exists.mp (full.mpr (order ▸ by decide))
  obtain ⟨-, box, -⟩ := view_found_on_lookup_order Builder.crossed_built earlier bare known 1
  obtain ⟨-, root, -⟩ := view_found_on_lookup_order Builder.crossed_built earlier many known 0
  obtain ⟨search, -, -⟩ := view_found_on_lookup_order Builder.crossed_built earlier many known 1
  refine ⟨order, ⟨j, found, seen j found⟩, box.mpr (order ▸ by decide), ?_, (search _).mpr rfl⟩
  rw [← Option.not_isSome_iff_eq_none, root]
  exact order ▸ by decide

end Gradual
