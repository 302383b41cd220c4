import Gradual.Proofs.LeafCopies

/-!
Renaming in copies: which variable an occurrence in a copy refers to. A variable of the copy stands for
the original from the first place on that introduces the original in the order in which the copy is
made; an occurrence before that place still refers to the original.
-/

namespace Gradual

/-- What a place does with the variable that it mentions. -/
inductive Role where
  /-- An argument or a definition: the variable is new here. -/
  | binds
  /-- An occurrence as the target of an assignment, which introduces a local variable. -/
  | introduces
  | uses
  /-- All copies share the variable. -/
  | shares
  deriving DecidableEq

def Role.isIntroduction : Role → Bool
  | .binds | .introduces => true
  | .uses | .shares => false

/-- A place that mentions a variable. -/
structure Mention where
  var : Var
  role : Role
  deriving DecidableEq

def NameRef.role (ref : NameRef) : Role :=
  if ref.isDef && ref.binding == .inFunction then .introduces else .uses

def Leaf.mention? : Leaf → Option Mention
  | .binds v => some ⟨v, .binds⟩
  | .name ref =>
    match ref.symbol with
    | .var v => some ⟨v, ref.role⟩
    | _ => none
  | .shares v => some ⟨v, .shares⟩
  | .type _ | .signature _ | .declares _ => none

/-- The places in a function that mention variables, in the order of the walk. -/
def FuncDef.mentions (w : Walk) (d : FuncDef) : List Mention := (d.leaves w).filterMap Leaf.mention?

/-- A variable is mentioned nowhere before a place that introduces it, and behind that place it is only
introduced and used. -/
def IntroducedFirst (ms : List Mention) (v : VarId) : Prop :=
  ∃ before first after, ms = before ++ first :: after ∧ (∀ m ∈ before, m.var.id ≠ v) ∧
    first.var.id = v ∧ first.role.isIntroduction = true ∧
    ∀ m ∈ after, m.var.id = v → m.role = .introduces ∨ m.role = .uses

theorem introducedFirst_iff {ms : List Mention} {v : VarId} :
    IntroducedFirst ms v ↔ ∃ first ∈ (ms.filter (·.var.id == v)).head?,
      first.role.isIntroduction = true ∧
        ∀ m ∈ (ms.filter (·.var.id == v)).tail, m.role = .introduces ∨ m.role = .uses := by
  constructor
  · rintro ⟨before, first, after, rfl, unmentioned, about, introduces, others⟩
    have none : before.filter (·.var.id == v) = [] :=
      List.filter_eq_nil_iff.mpr fun m member => by simpa using unmentioned m member
    have filtered : (before ++ first :: after).filter (·.var.id == v) =
        first :: after.filter (·.var.id == v) := by
      rw [List.filter_append, none, List.nil_append, List.filter_cons_of_pos (by simpa using about)]
    rw [filtered]
    refine ⟨first, rfl, introduces, fun m member => ?_⟩
    obtain ⟨listed, about⟩ := List.mem_filter.mp member
    exact others m listed (by simpa using about)
  · rintro ⟨first, found, introduces, others⟩
    cases filtered : ms.filter (·.var.id == v) with
    | nil =>
      rw [filtered] at found
      cases found
    | cons f rest =>
      rw [filtered] at found others
      cases found
      obtain ⟨before, after, rfl, unmentioned, about, rfl⟩ := List.filter_eq_cons_iff.mp filtered
      refine ⟨before, first, after, rfl, fun m member => by simpa using unmentioned m member,
        by simpa using about, introduces, fun m member about => ?_⟩
      exact others m (List.mem_filter.mpr ⟨member, by simpa using about⟩)

instance (ms : List Mention) (v : VarId) : Decidable (IntroducedFirst ms v) :=
  decidable_of_iff _ introducedFirst_iff.symm

/-! ### Copies of mentions -/

namespace Naming

variable {args : TypeArgs} {n : Naming} {m : Mention}

/-- Does a place make a variable for the copy? -/
def makes (n : Naming) (m : Mention) : Bool :=
  m.role == .binds || m.role == .introduces && !n.renamed.contains m.var.id

/-- The variables that stand for others behind a place. -/
def step (args : TypeArgs) (n : Naming) (m : Mention) : Naming :=
  if n.makes m then (n.fresh args m.var).2 else n

/-- The variable that a place of the copy mentions. -/
def target (n : Naming) (m : Mention) : Var :=
  if m.role = .shares then m.var else (n.renamed[m.var.id]?).getD m.var

end Naming

/-- Copies places one after the other. -/
def copyMentions (args : TypeArgs) : Naming → List Mention → List Mention
  | _, [] => []
  | n, m :: ms => ⟨(n.step args m).target m, m.role⟩ :: copyMentions args (n.step args m) ms

section

variable (args : TypeArgs) {n : Naming}

theorem Naming.makes_name {ref : NameRef} {v : Var} :
    n.makes ⟨v, ref.role⟩ = n.introducedBy ref v := by
  obtain ⟨name, fullName, binding, symbol, isDef⟩ := ref
  cases isDef <;> cases binding <;> rfl

/-- A new variable is what its original stands for. -/
theorem Naming.target_fresh {v : Var} {role : Role} (own : role ≠ .shares) :
    (n.fresh args v).2.target ⟨v, role⟩ = (n.fresh args v).1 := by
  simp [target, own, fresh]

theorem NameRef.role_ne_shares (ref : NameRef) : ref.role ≠ .shares := by
  unfold role
  split <;> simp

theorem Leaf.copy_of_mention {l : Leaf} {m : Mention} (mentioned : l.mention? = some m) :
    (l.copy args n).1.mention? = some ⟨(n.step args m).target m, m.role⟩ ∧
      (l.copy args n).2 = n.step args m := by
  cases l with
  | binds v =>
    cases mentioned
    refine ⟨?_, rfl⟩
    rw [show n.step args ⟨v, .binds⟩ = (n.fresh args v).2 from rfl,
      Naming.target_fresh args (by simp)]
    rfl
  | name ref =>
    obtain ⟨name, fullName, binding, symbol, isDef⟩ := ref
    cases symbol with
    | func | cls | module | typeVar => cases mentioned
    | var v =>
      cases mentioned
      simp only [Leaf.copy, Naming.step, Naming.makes_name]
      split
      · rw [Naming.target_fresh args (NameRef.role_ne_shares _)]
        exact ⟨rfl, rfl⟩
      · rw [Naming.target, if_neg (NameRef.role_ne_shares _)]
        exact ⟨rfl, rfl⟩
  | shares v =>
    cases mentioned
    exact ⟨rfl, rfl⟩
  | type | signature | declares => cases mentioned

theorem Leaf.copy_of_no_mention {l : Leaf} (plain : l.mention? = none) :
    (l.copy args n).1.mention? = none ∧ (l.copy args n).2 = n := by
  cases l with
  | binds | shares => cases plain
  | name ref =>
    obtain ⟨name, fullName, binding, symbol, isDef⟩ := ref
    cases symbol with
    | var => cases plain
    | func | cls | module | typeVar => exact ⟨rfl, rfl⟩
  | type | signature | declares => exact ⟨rfl, rfl⟩

theorem mentions_copyLeaves (ls : List Leaf) :
    (copyLeaves args n ls).1.filterMap Leaf.mention? =
      copyMentions args n (ls.filterMap Leaf.mention?) := by
  induction ls generalizing n with
  | nil => rfl
  | cons l ls ih =>
    rw [copyLeaves, List.filterMap_cons, List.filterMap_cons, ih]
    cases mentioned : l.mention? with
    | none =>
      obtain ⟨plain, same⟩ := Leaf.copy_of_no_mention args mentioned
      rw [plain, same]
    | some m =>
      obtain ⟨copied, next⟩ := Leaf.copy_of_mention args mentioned
      rw [copied, next, copyMentions]

theorem copyMentions_append (ms ms' : List Mention) :
    copyMentions args n (ms ++ ms') =
      copyMentions args n ms ++ copyMentions args (ms.foldl (Naming.step args) n) ms' := by
  induction ms generalizing n with
  | nil => rfl
  | cons m ms ih => rw [List.cons_append, copyMentions, copyMentions, ih, List.foldl_cons, List.cons_append]

theorem copyMentions_roles (ms : List Mention) :
    (copyMentions args n ms).map (·.role) = ms.map (·.role) := by
  induction ms generalizing n with
  | nil => rfl
  | cons m ms ih => rw [copyMentions, List.map_cons, List.map_cons, ih]

theorem length_copyMentions (ms : List Mention) : (copyMentions args n ms).length = ms.length := by
  induction ms generalizing n with
  | nil => rfl
  | cons m ms ih => rw [copyMentions, List.length_cons, List.length_cons, ih]

/-! ### Which variables stand for others -/

namespace Naming

variable {m : Mention} {v : VarId}

theorem renamed_step : (n.step args m).renamed[v]? =
    if n.makes m = true ∧ m.var.id = v then some (n.fresh args m.var).1 else n.renamed[v]? := by
  unfold step
  by_cases made : n.makes m = true
  · rw [if_pos made]
    simp [fresh, made, Std.TreeMap.getElem?_insert]
  · simp [made]

/-- What stands for another variable is new. -/
structure Since (first : VarId) (n : Naming) : Prop where
  next : first ≤ n.vars.next
  renamed : ∀ (v : VarId) (u : Var), n.renamed[v]? = some u → first ≤ u.id ∧ u.id < n.vars.next

theorem Since.step {first : VarId} (since : n.Since first) : (n.step args m).Since first := by
  by_cases made : n.makes m = true
  · have next : (n.step args m).vars.next = n.vars.next + 1 := by
      rw [Naming.step, if_pos made]
      rfl
    refine ⟨by rw [next]; exact Nat.le_succ_of_le since.next, fun v u known => ?_⟩
    rw [next]
    rw [renamed_step] at known
    split at known
    · obtain rfl := Option.some.inj known
      exact ⟨since.next, Nat.lt_succ_self _⟩
    · have old := since.renamed v u known
      exact ⟨old.1, Nat.lt_succ_of_lt old.2⟩
  · rw [Naming.step, if_neg made]
    exact since

theorem Since.steps {first : VarId} (since : n.Since first) (ms : List Mention) :
    (ms.foldl (Naming.step args) n).Since first := by
  induction ms generalizing n with
  | nil => exact since
  | cons m ms ih => exact ih (since.step args)

/-- A place makes no variable for one that it mentions and that has none yet, unless it introduces
it. -/
theorem makes_iff (absent : n.renamed[m.var.id]? = none) :
    n.makes m = true ↔ m.role.isIntroduction = true := by
  have unknown : n.renamed.contains m.var.id = false := by
    rw [Std.TreeMap.contains_eq_isSome_getElem?, absent]
    rfl
  rw [makes, unknown]
  cases m.role <;> decide

theorem renamed_step_eq_none_iff :
    (n.step args m).renamed[v]? = none ↔
      n.renamed[v]? = none ∧ (m.var.id = v → m.role.isIntroduction = false) := by
  rw [renamed_step]
  by_cases about : m.var.id = v
  · subst about
    by_cases absent : n.renamed[m.var.id]? = none
    · simp [absent, makes_iff]
    · by_cases made : n.makes m = true <;> simp [absent, made]
  · simp [about]

/-- A variable has none in its place behind places that do not introduce it. -/
theorem renamed_eq_none_iff (ms : List Mention) :
    (ms.foldl (Naming.step args) n).renamed[v]? = none ↔
      n.renamed[v]? = none ∧ ∀ m ∈ ms, m.var.id = v → m.role.isIntroduction = false := by
  induction ms generalizing n with
  | nil => simp
  | cons m ms ih =>
    rw [List.foldl_cons, ih, renamed_step_eq_none_iff, List.forall_mem_cons, and_assoc]

/-- The variable that stands for another one does so until a place binds the other one again. -/
theorem renamed_stays {u : Var} {ms : List Mention} (known : n.renamed[v]? = some u)
    (unbound : ∀ m ∈ ms, m.var.id = v → m.role ≠ .binds) :
    (ms.foldl (Naming.step args) n).renamed[v]? = some u := by
  induction ms generalizing n with
  | nil => exact known
  | cons m ms ih =>
    obtain ⟨first, rest⟩ := List.forall_mem_cons.mp unbound
    refine ih ?_ rest
    rw [renamed_step, if_neg, known]
    rintro ⟨made, about⟩
    have present : n.renamed.contains m.var.id = true := by
      rw [Std.TreeMap.contains_eq_isSome_getElem?, about, known]
      rfl
    have other := first about
    simp [makes, present, other] at made

end Naming

end

/-! ### Occurrences in copies -/

/-- All places of a function that mention a variable, those that stand in the same places of its copy
mention the other one. -/
def FuncDef.RenamesTo (d copy : FuncDef) (v : VarId) (u : Var) : Prop :=
  ∀ p ∈ (d.mentions .copying).zip (copy.mentions .copying), p.1.var.id = v → p.2.var = u

section

variable (args : TypeArgs) {n : Naming} {first : VarId}

/-- What a place behind others is copied to. -/
theorem copyMentions_at (before after : List Mention) (m : Mention) :
    (m, (⟨((before ++ [m]).foldl (Naming.step args) n).target m, m.role⟩ : Mention)) ∈
      (before ++ m :: after).zip (copyMentions args n (before ++ m :: after)) := by
  rw [copyMentions_append, List.zip_append (length_copyMentions args before).symm, copyMentions,
    List.zip_cons_cons, List.foldl_append]
  exact List.mem_append_right _ List.mem_cons_self

/-- Places that are paired in a function and in a copy are as far behind the first places. -/
theorem of_mem_zip_copyMentions {ms : List Mention} {p : Mention × Mention}
    (member : p ∈ ms.zip (copyMentions args n ms)) :
    ∃ before after, ms = before ++ p.1 :: after ∧
      p.2 = ⟨((before ++ [p.1]).foldl (Naming.step args) n).target p.1, p.1.role⟩ := by
  induction ms generalizing n with
  | nil => cases member
  | cons m ms ih =>
    rw [copyMentions, List.zip_cons_cons] at member
    rcases List.mem_cons.mp member with rfl | later
    · exact ⟨[], ms, rfl, rfl⟩
    · obtain ⟨before, after, split, copied⟩ := ih later
      exact ⟨m :: before, after, congrArg (m :: ·) split, copied⟩

theorem target_of_not_shares {m : Mention} (own : m.role ≠ .shares) :
    n.target m = (n.renamed[m.var.id]?).getD m.var := if_neg own

/-- A place refers to the original variable where no place up to it has introduced it, and to a new
variable from there on. -/
theorem target_eq_or (since : n.Since first) (before : List Mention) {m : Mention}
    (absent : n.renamed[m.var.id]? = none) :
    let u := ((before ++ [m]).foldl (Naming.step args) n).target m
    let introduced := ∃ x ∈ before ++ [m], x.var.id = m.var.id ∧ x.role.isIntroduction = true
    u = m.var ∧ (m.role = .shares ∨ ¬ introduced) ∨ first ≤ u.id ∧ m.role ≠ .shares ∧ introduced := by
  intro u introduced
  have none_iff := Naming.renamed_eq_none_iff args (n := n) (v := m.var.id) (before ++ [m])
  by_cases shared : m.role = .shares
  · exact .inl ⟨if_pos shared, .inl shared⟩
  · have target : u = _ := target_of_not_shares shared
    cases known : ((before ++ [m]).foldl (Naming.step args) n).renamed[m.var.id]? with
    | none =>
      rw [known] at target
      refine .inl ⟨target, .inr ?_⟩
      rintro ⟨x, member, about, introduces⟩
      rw [(none_iff.mp known).2 x member about] at introduces
      cases introduces
    | some w =>
      rw [known] at target
      refine .inr ⟨target ▸ ((since.steps args (before ++ [m])).renamed _ w known).1, shared, ?_⟩
      refine Classical.byContradiction fun nowhere => ?_
      have still : ∀ x ∈ before ++ [m], x.var.id = m.var.id → x.role.isIntroduction = false :=
        fun x member about => Bool.eq_false_iff.mpr fun introduces =>
          nowhere ⟨x, member, about, introduces⟩
      rw [none_iff.mpr ⟨absent, still⟩] at known
      cases known

theorem next_le_steps (ms : List Mention) :
    n.vars.next ≤ (ms.foldl (Naming.step args) n).vars.next := by
  induction ms generalizing n with
  | nil => exact Nat.le_refl _
  | cons m ms ih =>
    refine Nat.le_trans ?_ ih
    unfold Naming.step
    split
    · exact Nat.le_succ _
    · exact Nat.le_refl _

/-- The first place that mentions a variable. -/
theorem exists_first_mention {ms : List Mention} {v : VarId} (mentioned : ∃ m ∈ ms, m.var.id = v) :
    ∃ before m after, ms = before ++ m :: after ∧ (∀ x ∈ before, x.var.id ≠ v) ∧ m.var.id = v := by
  obtain ⟨m, member, about⟩ := mentioned
  obtain ⟨f, found⟩ : ∃ f, ms.find? (·.var.id == v) = some f :=
    Option.isSome_iff_exists.mp (List.find?_isSome.mpr ⟨m, member, by simpa using about⟩)
  obtain ⟨here, before, after, split, others⟩ := List.find?_eq_some_iff_append.mp found
  exact ⟨before, f, after, split, fun x inside => by simpa using others x inside, by simpa using here⟩

/-- What stands for a variable behind the place that introduces it. -/
theorem renamed_of_introduction (since : n.Since first) (before : List Mention) {f : Mention}
    (introduces : f.role.isIntroduction = true) :
    ∃ u : Var, first ≤ u.id ∧ u.id < ((before ++ [f]).foldl (Naming.step args) n).vars.next ∧
      ((before ++ [f]).foldl (Naming.step args) n).renamed[f.var.id]? = some u := by
  cases known : ((before ++ [f]).foldl (Naming.step args) n).renamed[f.var.id]? with
  | none =>
    have still := ((Naming.renamed_eq_none_iff args (before ++ [f])).mp known).2 f
      (List.mem_append_right _ (List.mem_singleton.mpr rfl)) rfl
    rw [still] at introduces
    cases introduces
  | some u =>
    have new := (since.steps args (before ++ [f])).renamed _ u known
    exact ⟨u, new.1, new.2, rfl⟩

/-- If one new variable stands for all occurrences of a variable, then the first of them introduces
it. -/
theorem introducedFirst_of_renamed {ms : List Mention} {v : VarId} {u : Var} (since : n.Since first)
    (absent : n.renamed[v]? = none) (old : v < first) (mentioned : ∃ m ∈ ms, m.var.id = v)
    (new : first ≤ u.id) (all : ∀ p ∈ ms.zip (copyMentions args n ms), p.1.var.id = v → p.2.var = u) :
    IntroducedFirst ms v := by
  obtain ⟨before, f, after, rfl, unmentioned, rfl⟩ := exists_first_mention mentioned
  have here : ((before ++ [f]).foldl (Naming.step args) n).target f = u :=
    all _ (copyMentions_at args before after f) rfl
  rcases target_eq_or args since before absent with
    ⟨same, -⟩ | ⟨-, own, x, member, about, introduces⟩
  · rw [here] at same
    rw [same] at new
    exact absurd old (Nat.not_lt.mpr new)
  have introducing : f.role.isIntroduction = true := by
    rcases List.mem_append.mp member with inside | only
    · exact absurd about (unmentioned x inside)
    · rwa [List.mem_singleton.mp only] at introduces
  obtain ⟨w, -, bounded, known⟩ := renamed_of_introduction args since before introducing
  rw [target_of_not_shares own, known, Option.getD_some] at here
  subst here
  refine ⟨before, f, after, rfl, unmentioned, rfl, introducing, fun m member about => ?_⟩
  obtain ⟨mid, rest, rfl⟩ := List.append_of_mem member
  have regroup : before ++ f :: (mid ++ m :: rest) = (before ++ [f] ++ mid) ++ m :: rest := by simp
  have paired := copyMentions_at args (n := n) (before ++ [f] ++ mid) rest m
  rw [← regroup] at paired
  have there := all _ paired about
  dsimp only at there
  cases role : m.role with
  | introduces => exact .inl rfl
  | uses => exact .inr rfl
  | shares =>
    rw [Naming.target, if_pos role] at there
    rw [← there, about] at new
    exact absurd old (Nat.not_lt.mpr new)
  | binds =>
    -- The variable that is made here is newer than the one that is made at the first place.
    have later := next_le_steps args (n := (before ++ [f]).foldl (Naming.step args) n) mid
    rw [← List.foldl_append] at later
    rw [List.foldl_append] at there
    generalize (before ++ [f] ++ mid).foldl (Naming.step args) n = n' at later there
    obtain ⟨u, role'⟩ := m
    cases role
    have made : (n'.fresh args u).1 = w := (Naming.target_fresh args (by decide)).symm.trans there
    have last : w.id = n'.vars.next := made ▸ rfl
    exact absurd (Nat.lt_of_lt_of_le bounded later) (last ▸ Nat.lt_irrefl _)

/-- If the first occurrence of a variable introduces it, then one new variable stands for all of
them. -/
theorem renamed_of_introducedFirst {ms : List Mention} {v : VarId} (since : n.Since first)
    (introduced : IntroducedFirst ms v) :
    ∃ u : Var, first ≤ u.id ∧
      ∀ p ∈ ms.zip (copyMentions args n ms), p.1.var.id = v → p.2.var = u := by
  obtain ⟨before, f, after, rfl, unmentioned, rfl, introduces, others⟩ := introduced
  obtain ⟨u, new, -, known⟩ := renamed_of_introduction args since before introduces
  refine ⟨u, new, fun p member about => ?_⟩
  have own : f.role ≠ .shares := by
    intro shared
    rw [shared] at introduces
    cases introduces
  rw [List.foldl_append] at known
  rw [copyMentions_append, List.zip_append (length_copyMentions args before).symm, copyMentions,
    List.zip_cons_cons, List.mem_append, List.mem_cons] at member
  rcases member with inside | rfl | behind
  · exact absurd about (unmentioned p.1 (List.of_mem_zip inside).1)
  · show Naming.target _ f = u
    rw [target_of_not_shares own]
    exact congrArg (·.getD f.var) known
  · obtain ⟨before', after', rfl, copied⟩ := of_mem_zip_copyMentions args behind
    have listed : before' ++ [p.1] ⊆ before' ++ p.1 :: after' :=
      ((List.singleton_sublist.mpr List.mem_cons_self).append_left before').subset
    have unbound : ∀ m ∈ before' ++ [p.1], m.var.id = f.var.id → m.role ≠ .binds := by
      intro m member about binds
      have other := others m (listed member) about
      rw [binds] at other
      rcases other with wrong | wrong <;> cases wrong
    have still := Naming.renamed_stays args known unbound
    have own' : p.1.role ≠ .shares := by
      intro shared
      have other := others p.1 (by simp) about
      rw [shared] at other
      rcases other with wrong | wrong <;> cases wrong
    rw [copied]
    show Naming.target _ p.1 = u
    rw [target_of_not_shares own', about]
    exact congrArg (·.getD p.1.var) still

end

/-- In a copy of a function every place that mentions a variable mentions the variable itself as long
as no place up to it, in the order in which the copy is made, introduces the variable, and a new one
from there on. So one new variable stands for all occurrences of a variable exactly if the first of
them introduces it and no later one binds it again or shares it among the copies. That is the order of
the copy and not the one of the check: of the items of a `with` all managers come first, and of the
clauses of a comprehension all sequences. -/
theorem copy_renames_from_introduction_on (d : FuncDef) (args : TypeArgs) (node : NodeId)
    (types : VarTypes) (v : VarId) (old : v < types.next)
    (mentioned : ∃ m ∈ d.mentions .copying, m.var.id = v) :
    let copy := (d.instantiate args node types).1
    (copy.mentions .copying).map (·.role) = (d.mentions .copying).map (·.role) ∧
      (∀ before m after, d.mentions .copying = before ++ m :: after → m.var.id = v →
        ∃ u, (copy.mentions .copying)[before.length]?.map (·.var) = some u ∧
          let introduced := ∃ x ∈ before ++ [m], x.var.id = v ∧ x.role.isIntroduction = true
          (u = m.var ∧ (m.role = .shares ∨ ¬ introduced) ∨
            types.next ≤ u.id ∧ m.role ≠ .shares ∧ introduced)) ∧
      ((∃ u : Var, types.next ≤ u.id ∧ d.RenamesTo copy v u) ↔
        IntroducedFirst (d.mentions .copying) v) := by
  intro copy
  have mentions : copy.mentions .copying = copyMentions args ⟨∅, types⟩ (d.mentions .copying) := by
    rw [FuncDef.mentions, (d.instantiate_leaves args node types).1, mentions_copyLeaves]
    rfl
  have since : Naming.Since types.next ⟨∅, types⟩ := ⟨Nat.le_refl _, fun v u known => by simp at known⟩
  have absent : ∀ v : VarId, (⟨∅, types⟩ : Naming).renamed[v]? = none := fun v => by simp
  refine ⟨by rw [mentions, copyMentions_roles], ?_, ?_⟩
  · rintro before m after split rfl
    have placed : (copy.mentions .copying)[before.length]?.map (·.var) =
        some (((before ++ [m]).foldl (Naming.step args) ⟨∅, types⟩).target m) := by
      rw [mentions, split, copyMentions_append, List.getElem?_append_right
        (Nat.le_of_eq (length_copyMentions args before)), length_copyMentions, Nat.sub_self,
        copyMentions, List.foldl_append]
      rfl
    exact ⟨_, placed, target_eq_or args since before (absent m.var.id)⟩
  · unfold FuncDef.RenamesTo
    rw [mentions]
    exact ⟨fun ⟨u, new, all⟩ => introducedFirst_of_renamed args since (absent v) old mentioned new all,
      renamed_of_introducedFirst args since⟩

/-! ### A comprehension -/

/-- A list of lists, one of these lists and an item of it. -/
def Var.rows : Var := ⟨0, "rows", "rows", none⟩

def Var.row : Var := ⟨1, "row", "row", none⟩

def Var.item : Var := ⟨2, "item", "item", none⟩

/-- An occurrence of a local variable. -/
def Expr.ofLocal (id : NodeId) (v : Var) (isDef : Bool) : Expr :=
  ⟨id, .atLine 1, .name ⟨v.name, v.fullName, .inFunction, .var v, isDef⟩⟩

/-- A function that returns all items of all rows. -/
def FuncDef.flatten : FuncDef where
  name := "flatten"
  fullName := "m.flatten"
  owner := none
  params := [⟨.rows, .pos, none⟩]
  body := [⟨.atLine 1, .ret (some ⟨5, .atLine 1, .listComprehension (.ofLocal 4 .item false)
    [⟨[.ofLocal 0 .row true], .ofLocal 1 .rows false, []⟩,
      ⟨[.ofLocal 2 .item true], .ofLocal 3 .row false, []⟩]⟩)⟩]
  signature := some (.positional [.any] .any)
  isGenerator := false
  span := .atLine 1
  isAbstract := false
  earlier := none
  symbol := ⟨"flatten", "m.flatten", none, .any, false⟩

/-- The check visits every variable only after the place that introduces it. Still no one variable of a
copy stands for the rows: the second clause refers to the row of the original function. -/
theorem flatten_reads_original_row :
    let copy := (FuncDef.flatten.instantiate [(-1, .tuple [])] 6 ⟨3, ∅⟩).1
    (∀ m ∈ FuncDef.flatten.mentions .checking,
        IntroducedFirst (FuncDef.flatten.mentions .checking) m.var.id) ∧
      (copy.mentions .copying)[2]?.map (·.var) = some .row ∧
      ¬ ∃ u : Var, 3 ≤ u.id ∧ FuncDef.flatten.RenamesTo copy Var.row.id u := by
  intro copy
  obtain ⟨-, placed, consistent⟩ := copy_renames_from_introduction_on .flatten [(-1, .tuple [])] 6
    ⟨3, ∅⟩ Var.row.id (by decide) ⟨⟨.row, .uses⟩, by decide, rfl⟩
  refine ⟨by decide, ?_, fun renamed => absurd (consistent.mp renamed) (by decide)⟩
  obtain ⟨u, found, ⟨same, -⟩ | ⟨-, -, introduced⟩⟩ := placed
    [⟨.rows, .binds⟩, ⟨.rows, .uses⟩] ⟨.row, .uses⟩ _ rfl rfl
  · exact found.trans (congrArg some same)
  · exact absurd introduced (by decide)

end Gradual
