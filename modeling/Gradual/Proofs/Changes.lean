import Gradual.Checker.Assignment
import Gradual.Proofs.StmtCopies

/-!
Changes: what the checker does to its state, one thing at a time. Whatever it checks is a chain of
such changes, in which each one is allowed by what was allowed at the start or belongs to a copy of a
function that was made before it; what no change does, no check does.
-/

namespace Gradual

/-- What an action may change. -/
structure Effects where
  /-- The expressions whose types it may record. -/
  nodes : NodeId → Prop
  /-- The variables whose types it may replace, and by which types. -/
  retypes : VarId → Ty → Prop
  /-- The variables without types that it may give the type of a value. -/
  infers : VarId → Prop
  /-- It may make copies of functions. -/
  copies : Bool
  /-- It may bind names of the function. -/
  declares : Bool

namespace Effects

/-- What the one lets change beside the scope, the other lets change too. -/
structure Less (w w' : Effects) : Prop where
  nodes : ∀ id, w.nodes id → w'.nodes id
  retypes : ∀ v type, w.retypes v type → w'.retypes v type
  infers : ∀ v, w.infers v → w'.infers v
  copies : w.copies = true → w'.copies = true

instance : LE Effects := ⟨Less⟩

/-- With what the check of some copies of functions may change. -/
def including (w : Effects) (made : List FuncDef) : Effects where
  nodes id := w.nodes id ∨ ∃ d ∈ made, id ∈ d.nodes
  retypes v type := w.retypes v type ∨ ∃ d ∈ made, v ∈ d.retyped
  infers v := w.infers v ∨ ∃ d ∈ made, v ∈ d.introduced
  copies := w.copies
  declares := w.declares

/-- Copies may be made of a function: what it shares with them may change. -/
structure Shares (w : Effects) (d : FuncDef) : Prop where
  copies : w.copies = true
  retyped : ∀ v ∈ d.sharedRetyped, ∀ type, w.retypes v type
  introduced : ∀ v ∈ d.sharedIntroduced, w.infers v

variable {w w' : Effects} {made made' : List FuncDef}

theorem le_including : w ≤ w.including made :=
  ⟨fun _ => .inl, fun _ _ => .inl, fun _ => .inl, id⟩

theorem including_mono (h : w ≤ w') : w.including made ≤ w'.including made where
  nodes id := Or.imp_left (h.nodes id)
  retypes v type := Or.imp_left (h.retypes v type)
  infers v := Or.imp_left (h.infers v)
  copies := h.copies

/-- Copies that are made behind others. -/
theorem including_including : (w.including made).including made' = w.including (made ++ made') := by
  simp only [including, List.mem_append, or_and_right, exists_or, or_assoc]

@[simp] theorem including_nil : w.including [] = w := by
  simp [including]

theorem Shares.mono {d : FuncDef} (h : w.Shares d) (le : w ≤ w') : w'.Shares d where
  copies := le.copies h.copies
  retyped v member type := le.retypes v type (h.retyped v member type)
  introduced v member := le.infers v (h.introduced v member)

end Effects

/-- A single change of the state. -/
inductive Change (w : Effects) : State → State → Prop
  | scope (s : State) (scope : Scope) : Change w s { s with scope }
  | record (s : State) (id : NodeId) (type : Ty) (allowed : w.nodes id) :
      Change w s { s with types := s.types.insert id type }
  | retype (s : State) (v : Var) (type : Ty) (allowed : w.retypes v.id type) :
      Change w s { s with vars := s.vars.set v type }
  | infer (s : State) (v : Var) (type : Ty) (allowed : w.infers v.id)
      (specific : type.isSpecific = true) : Change w s { s with vars := s.vars.infer v type }
  | report (s : State) (d : Diagnostic) (new : d ∉ s.diagnostics) :
      Change w s { s with diagnostics := s.diagnostics ++ [d] }
  | miss (s : State) (name : String) : Change w s { s with missing := s.missing.insert name }

/-- A chain of changes in which the copies `made` are made of functions. -/
inductive Changes (w : Effects) (s : State) : List FuncDef → State → Prop
  | refl : Changes w s [] s
  | change {made : List FuncDef} {t u : State} (earlier : Changes w s made t)
      (last : Change (w.including made) t u) : Changes w s made u
  | copy {made : List FuncDef} {t : State} (earlier : Changes w s made t) (d : FuncDef)
      (args : TypeArgs) (shares : (w.including made).Shares d) :
      Changes w s (made ++ [(d.instantiate args t.nextNode t.vars).1])
        { t with
          nextNode := (d.instantiate args t.nextNode t.vars).2.1
          vars := (d.instantiate args t.nextNode t.vars).2.2 }

namespace Change

variable {w w' : Effects} {s t : State}

theorem mono (h : Change w s t) (le : w ≤ w') : Change w' s t := by
  cases h with
  | scope scope => exact .scope s scope
  | record id type allowed => exact .record s id type (le.nodes id allowed)
  | retype v type allowed => exact .retype s v type (le.retypes v.id type allowed)
  | infer v type allowed specific => exact .infer s v type (le.infers v.id allowed) specific
  | report d new => exact .report s d new
  | miss name => exact .miss s name

theorem nextNode (h : Change w s t) : t.nextNode = s.nextNode := by cases h <;> rfl

theorem next_infer (types : VarTypes) (v : Var) (type : Ty) :
    (types.infer v type).next = types.next := by
  unfold VarTypes.infer
  split <;> rfl

theorem nextVar (h : Change w s t) : t.vars.next = s.vars.next := by
  cases h with
  | infer v type => exact next_infer s.vars v type
  | scope | record | retype | report | miss => rfl

theorem types {id : NodeId} (h : Change w s t) (other : ¬ w.nodes id) :
    t.types[id]? = s.types[id]? := by
  cases h with
  | record node type allowed =>
    have ne : node ≠ id := fun same => other (same ▸ allowed)
    simp [Std.TreeMap.getElem?_insert, ne]
  | scope | retype | infer | report | miss => rfl

/-- What is recorded is replaced, but never taken away. -/
theorem recorded {id : NodeId} (h : Change w s t) (known : s.types[id]?.isSome = true) :
    t.types[id]?.isSome = true := by
  cases h with
  | record node type allowed =>
    rw [Std.TreeMap.getElem?_insert]
    split
    · rfl
    · exact known
  | scope | retype | infer | report | miss => exact known

/-- Inference leaves the variables that have types. -/
theorem get?_infer_of_typed {types : VarTypes} {u v : Var} {type given : Ty}
    (known : types.get? u = some type) : (types.infer v given).get? u = some type := by
  by_cases typed : types.hasType v = true
  · rw [VarTypes.infer_of_hasType typed]
    exact known
  · have ne : v.id ≠ u.id := by
      intro same
      rw [VarTypes.hasType_iff, VarTypes.get?, same] at typed
      exact typed (Option.isSome_of_eq_some known)
    rw [VarTypes.infer, if_neg typed, VarTypes.get?_set_of_ne ne]
    exact known

/-- A variable that can get no other type keeps the one that it has. -/
theorem typed {v : Var} {type : Ty} (h : Change w s t)
    (only : ∀ given, w.retypes v.id given → given = type) (known : s.vars.get? v = some type) :
    t.vars.get? v = some type := by
  cases h with
  | retype u given allowed =>
    by_cases same : u.id = v.id
    · rw [← only given (same ▸ allowed)]
      simp [VarTypes.get?, VarTypes.set, same]
    · rw [VarTypes.get?_set_of_ne same]
      exact known
  | infer u given => exact get?_infer_of_typed known
  | scope | record | report | miss => exact known

/-- The type of a variable changes only where it is replaced or inferred. -/
theorem untouched {v : Var} (h : Change w s t) (only : ∀ given, ¬ w.retypes v.id given)
    (other : ¬ w.infers v.id) : t.vars.get? v = s.vars.get? v := by
  cases h with
  | retype u given allowed =>
    have ne : u.id ≠ v.id := fun same => only given (same ▸ allowed)
    exact VarTypes.get?_set_of_ne ne
  | infer u given allowed =>
    have ne : u.id ≠ v.id := fun same => other (same ▸ allowed)
    unfold VarTypes.infer
    split
    · rfl
    · exact VarTypes.get?_set_of_ne ne
  | scope | record | report | miss => rfl

/-- A type that a variable did not have before and that is not declared is specific. -/
theorem specific {v : Var} {type : Ty} (h : Change w s t) (only : ∀ given, ¬ w.retypes v.id given)
    (none : s.vars.get? v = none) (known : t.vars.get? v = some type) :
    type.isSpecific = true := by
  cases h with
  | retype u given allowed =>
    have ne : u.id ≠ v.id := fun same => only given (same ▸ allowed)
    rw [VarTypes.get?_set_of_ne ne, none] at known
    cases known
  | infer u given allowed specific =>
    by_cases same : u.id = v.id
    · have none' : s.vars.get? u = Option.none := by
        rw [VarTypes.get?, same]
        exact none
      have untyped : ¬ s.vars.hasType u = true := by
        rw [VarTypes.hasType_iff, none']
        exact Bool.false_ne_true
      rw [VarTypes.infer, if_neg untyped] at known
      have given' : (s.vars.set u given).get? u = some type := by
        rw [VarTypes.get?, same]
        exact known
      rw [VarTypes.get?_set_self] at given'
      exact Option.some.inj given' ▸ specific
    · have ne : ((s.vars.infer u given).get? v) = s.vars.get? v := by
        unfold VarTypes.infer
        split
        · rfl
        · exact VarTypes.get?_set_of_ne same
      rw [ne, none] at known
      cases known
  | scope | record | report | miss =>
    have impossible : Option.none = some type := none.symm.trans known
    cases impossible

/-- Only new reports are made. -/
theorem diagnostics (h : Change w s t) :
    ∃ new, t.diagnostics = s.diagnostics ++ new ∧ new.Nodup ∧ ∀ d ∈ new, d ∉ s.diagnostics := by
  cases h with
  | report d new => exact ⟨[d], rfl, by simp, by simpa using new⟩
  | scope | record | retype | infer | miss => exact ⟨[], by simp⟩

end Change

namespace Changes

variable {w w' : Effects} {s t u : State} {made made' : List FuncDef}

theorem mono (h : Changes w s made t) (le : w ≤ w') : Changes w' s made t := by
  induction h with
  | refl => exact .refl
  | change _ last ih => exact ih.change (last.mono (Effects.including_mono le))
  | copy _ d args shares ih => exact ih.copy d args (shares.mono (Effects.including_mono le))

theorem single (h : Change w s t) : Changes w s [] t :=
  Changes.refl.change (by simpa using h)

/-- Chains that may go on with what the copies before them may change. -/
theorem append (h : Changes w s made t) (h' : Changes (w.including made) t made' u) :
    Changes w s (made ++ made') u := by
  induction h' with
  | refl => simpa using h
  | change _ last ih => exact ih.change (Effects.including_including ▸ last)
  | copy _ d args shares ih =>
    rw [← List.append_assoc]
    exact ih.copy d args (Effects.including_including ▸ shares)

theorem trans (h : Changes w s made t) (h' : Changes w t made' u) : Changes w s (made ++ made') u :=
  h.append (h'.mono Effects.le_including)

/-! ### Copies -/

theorem made_eq_nil (h : Changes w s made t) (none : w.copies = false) : made = [] := by
  induction h with
  | refl => rfl
  | change _ _ ih => exact ih
  | copy _ _ _ shares => exact nomatch none.symm.trans shares.copies

theorem nextNode (h : Changes w s made t) : s.nextNode ≤ t.nextNode := by
  induction h with
  | refl => exact Nat.le_refl _
  | change _ last ih => exact last.nextNode ▸ ih
  | copy _ d args _ ih => exact Nat.le_trans ih (d.instantiate_copied args _ _).nextNode

theorem nextVar (h : Changes w s made t) : s.vars.next ≤ t.vars.next := by
  induction h with
  | refl => exact Nat.le_refl _
  | change _ last ih => exact last.nextVar ▸ ih
  | copy _ d args _ ih => exact Nat.le_trans ih (d.instantiate_copied args _ _).nextVar

theorem range'_append_range' {a b c : Nat} (h : a ≤ b) (h' : b ≤ c) :
    List.range' a (b - a) ++ List.range' b (c - b) = List.range' a (c - a) := by
  obtain ⟨m, rfl⟩ := Nat.exists_eq_add_of_le h
  obtain ⟨n, rfl⟩ := Nat.exists_eq_add_of_le h'
  rw [Nat.add_sub_cancel_left, Nat.add_sub_cancel_left, List.range'_append_1, Nat.add_assoc,
    Nat.add_sub_cancel_left]

theorem mem_range'_sub {a b i : Nat} (h : a ≤ b) : i ∈ List.range' a (b - a) ↔ a ≤ i ∧ i < b := by
  rw [List.mem_range'_1, Nat.add_sub_cancel' h]

/-- All copies together have the ids that were free, each of them once. -/
theorem nodes_perm (h : Changes w s made t) :
    (made.flatMap (·.nodes)).Perm (List.range' s.nextNode (t.nextNode - s.nextNode)) := by
  induction h with
  | refl => simp
  | change _ last ih => exact last.nextNode ▸ ih
  | @copy made t earlier d args _ ih =>
    have copied := d.instantiate_copied args t.nextNode t.vars
    rw [List.flatMap_append, List.flatMap_singleton]
    exact (ih.append copied.nodes).trans
      (.of_eq (range'_append_range' earlier.nextNode copied.nextNode))

/-- The ids of copies are new. -/
theorem nodes_new (h : Changes w s made t) : ∀ d ∈ made, ∀ id ∈ d.nodes,
    s.nextNode ≤ id ∧ id < t.nextNode := by
  intro d member id own
  have listed := h.nodes_perm.subset (List.mem_flatMap.mpr ⟨d, member, own⟩)
  exact (mem_range'_sub h.nextNode).mp listed

/-- Copies replace types of new variables, or of those whose types may be replaced anyway. -/
theorem retypes_cases {v : VarId} {type : Ty} (h : Changes w s made t)
    (allowed : (w.including made).retypes v type) : w.retypes v type ∨ s.vars.next ≤ v := by
  induction h with
  | refl => exact .inl (by simpa using allowed)
  | change _ _ ih => exact ih allowed
  | @copy made t earlier d args shares ih =>
    rcases allowed with own | ⟨c, member, retyped⟩
    · exact .inl own
    · rcases List.mem_append.mp member with before | last
      · exact ih (.inr ⟨c, before, retyped⟩)
      -- What the last copy shares with its function was allowed when it was made.
      · rw [List.mem_singleton.mp last] at retyped
        rcases (d.instantiate_copied args t.nextNode t.vars).retyped v retyped with new | shared
        · exact .inr (Nat.le_trans earlier.nextVar new)
        · exact ih (shares.retyped v shared type)

/-- Copies introduce new variables, or those that may be introduced anyway. -/
theorem infers_cases {v : VarId} (h : Changes w s made t)
    (allowed : (w.including made).infers v) : w.infers v ∨ s.vars.next ≤ v := by
  induction h with
  | refl => exact .inl (by simpa using allowed)
  | change _ _ ih => exact ih allowed
  | @copy made t earlier d args shares ih =>
    rcases allowed with own | ⟨c, member, introduced⟩
    · exact .inl own
    · rcases List.mem_append.mp member with before | last
      · exact ih (.inr ⟨c, before, introduced⟩)
      · rw [List.mem_singleton.mp last] at introduced
        rcases (d.instantiate_copied args t.nextNode t.vars).introduced v introduced with new | shared
        · exact .inr (Nat.le_trans earlier.nextVar new)
        · exact ih (shares.introduced v shared)

/-- No change behind some replaces a type that is settled before them. -/
theorem retypes_only {v : Var} {p : Ty → Prop} (h : Changes w s made t) (old : v.id < s.vars.next)
    (only : ∀ given, w.retypes v.id given → p given) :
    ∀ given, (w.including made).retypes v.id given → p given := by
  intro given allowed
  rcases h.retypes_cases allowed with own | new
  · exact only given own
  · exact absurd old (Nat.not_lt.mpr new)

/-! ### What is left as it was -/

theorem types {id : NodeId} (h : Changes w s made t) (other : ¬ w.nodes id)
    (old : id < s.nextNode ∨ t.nextNode ≤ id) : t.types[id]? = s.types[id]? := by
  induction h with
  | refl => rfl
  | change earlier last ih =>
    rw [last.nextNode] at old
    refine (last.types ?_).trans (ih old)
    -- The change may be one in a copy made before it, whose ids are neither old nor still free.
    rintro (own | ⟨d, member, own⟩)
    · exact other own
    · obtain ⟨behind, before⟩ := earlier.nodes_new d member id own
      rcases old with older | later
      · exact absurd behind (Nat.not_le.mpr older)
      · exact absurd before (Nat.not_lt.mpr later)
  | @copy made t earlier d args _ ih =>
    have next := (d.instantiate_copied args t.nextNode t.vars).nextNode
    exact ih (old.imp_right (Nat.le_trans next))

theorem recorded {id : NodeId} (h : Changes w s made t) (known : s.types[id]?.isSome = true) :
    t.types[id]?.isSome = true := by
  induction h with
  | refl => exact known
  | change _ last ih => exact last.recorded ih
  | copy _ _ _ _ ih => exact ih

theorem typed {v : Var} {type : Ty} (h : Changes w s made t) (old : v.id < s.vars.next)
    (only : ∀ given, w.retypes v.id given → given = type) (known : s.vars.get? v = some type) :
    t.vars.get? v = some type := by
  induction h with
  | refl => exact known
  | change earlier last ih => exact last.typed (earlier.retypes_only old only) ih
  | copy earlier d args _ ih =>
    have older := Nat.lt_of_lt_of_le old earlier.nextVar
    exact ((d.instantiate_copied args _ _).vars v older).trans ih

theorem untouched {v : Var} (h : Changes w s made t) (old : v.id < s.vars.next)
    (only : ∀ given, ¬ w.retypes v.id given) (other : ¬ w.infers v.id) :
    t.vars.get? v = s.vars.get? v := by
  induction h with
  | refl => rfl
  | change earlier last ih =>
    refine (last.untouched (earlier.retypes_only old only) fun allowed => ?_).trans ih
    -- What only the copies before this change allow concerns variables that are newer than `v`.
    rcases earlier.infers_cases allowed with own | new
    · exact other own
    · exact absurd old (Nat.not_lt.mpr new)
  | copy earlier d args _ ih =>
    have older := Nat.lt_of_lt_of_le old earlier.nextVar
    exact ((d.instantiate_copied args _ _).vars v older).trans ih

/-- A variable whose type is not replaced gets a specific one, and then keeps it. -/
theorem specific {v : Var} {type : Ty} (h : Changes w s made t) (old : v.id < s.vars.next)
    (only : ∀ given, ¬ w.retypes v.id given) (none : s.vars.get? v = none)
    (known : t.vars.get? v = some type) : type.isSpecific = true := by
  induction h generalizing type with
  | refl =>
    have impossible : Option.none = some type := none.symm.trans known
    cases impossible
  | @change made t u earlier last ih =>
    have only' := earlier.retypes_only old only
    -- Either this change is the one that gives `v` its type, or it leaves the type that `v` has.
    cases before : t.vars.get? v with
    | none => exact last.specific only' before known
    | some type' =>
      have kept := last.typed (fun given allowed => absurd allowed (only' given)) before
      obtain rfl : type' = type := Option.some.inj (kept.symm.trans known)
      exact ih before
  | copy earlier d args _ ih =>
    have older := Nat.lt_of_lt_of_le old earlier.nextVar
    exact ih (((d.instantiate_copied args _ _).vars v older).symm.trans known)

/-- No change concerns the file that is checked. -/
theorem file (h : Changes w s made t) : t.file = s.file := by
  induction h with
  | refl => rfl
  | change _ last ih =>
    refine Eq.trans ?_ ih
    cases last <;> rfl
  | copy _ _ _ _ ih => exact ih

theorem diagnostics (h : Changes w s made t) :
    ∃ new, t.diagnostics = s.diagnostics ++ new ∧ new.Nodup ∧ ∀ d ∈ new, d ∉ s.diagnostics := by
  induction h with
  | refl => exact ⟨[], by simp⟩
  | copy _ _ _ _ ih => exact ih
  | change _ last ih =>
    obtain ⟨new, appended, distinct, unlike⟩ := ih
    obtain ⟨new', appended', distinct', unlike'⟩ := last.diagnostics
    rw [appended] at appended' unlike'
    refine ⟨new ++ new', by rw [appended', List.append_assoc], ?_, ?_⟩
    · refine List.nodup_append.mpr ⟨distinct, distinct', fun d earlier d' later same => ?_⟩
      exact unlike' d' later (List.mem_append_right _ (same ▸ earlier))
    · intro d member
      rcases List.mem_append.mp member with earlier | later
      · exact unlike d earlier
      · exact fun present => unlike' d later (List.mem_append_left _ present)

end Changes

end Gradual
