import Gradual.Proofs.Changes
import Gradual.Proofs.Contract

/-!
Frames: what an action leaves as it was. The rules of the checker change the state in few ways, and
whatever they are put together from keeps the scope, which is why each of them has one lemma here or
in the modules that follow, which says within which effects it stays.
-/

namespace Gradual

namespace Effects

/-- The same effects where names may be bound. -/
def declaring (w : Effects) : Effects := { w with declares := true }

theorem le_refl (w : Effects) : w ≤ w := ⟨fun _ => id, fun _ _ => id, fun _ => id, id⟩

theorem le_declaring {w : Effects} : w ≤ w.declaring :=
  ⟨fun _ => id, fun _ _ => id, fun _ => id, id⟩

theorem declaring_le {w : Effects} : w.declaring ≤ w :=
  ⟨fun _ => id, fun _ _ => id, fun _ => id, id⟩

/-- What an action within the effects does: it leaves the scope but for the names of the function, if
it may bind any, and all else changes as the effects allow. -/
structure Frame (w : Effects) (s s' : State) : Prop where
  scope : s'.scope = { s.scope with locals := s'.scope.locals }
  locals : w.declares = false → s'.scope.locals = s.scope.locals
  changes : ∃ made, Changes w s made s'

namespace Frame

variable {w w' : Effects} {s t u : State}

theorem refl (w : Effects) (s : State) : w.Frame s s := ⟨rfl, fun _ => rfl, [], .refl⟩

theorem trans (first : w.Frame s t) (second : w.Frame t u) : w.Frame s u where
  scope := by rw [second.scope, first.scope]
  locals h := (second.locals h).trans (first.locals h)
  changes := by
    obtain ⟨made, changes⟩ := first.changes
    obtain ⟨made', changes'⟩ := second.changes
    exact ⟨made ++ made', changes.trans changes'⟩

theorem mono (frame : w.Frame s t) (le : w ≤ w') (declares : w'.declares = false → w.declares = false) :
    w'.Frame s t where
  scope := frame.scope
  locals none := frame.locals (declares none)
  changes := frame.changes.imp fun _ changes => changes.mono le

/-- One change that leaves the scope. -/
theorem of_change (h : Change w s t) (same : t.scope = s.scope) : w.Frame s t where
  scope := by rw [same]
  locals _ := by rw [same]
  changes := ⟨[], .single h⟩

/-- Without names that are bound the whole scope is as it was. -/
theorem scope_eq (frame : w.Frame s t) (h : w.declares = false) : t.scope = s.scope := by
  rw [frame.scope, frame.locals h]

/-- The scope is changed before and taken back behind the other changes. -/
theorem rescoped {before after : Scope} (frame : w'.Frame { s with scope := before } t) (le : w' ≤ w)
    (scope : after = { s.scope with locals := after.locals })
    (locals : w.declares = false → after.locals = s.scope.locals) :
    w.Frame s { t with scope := after } where
  scope := scope
  locals := locals
  changes := by
    obtain ⟨made, changes⟩ := frame.changes
    have entered : Changes w s ([] ++ made) t :=
      (Changes.single (.scope s before)).trans (changes.mono le)
    exact ⟨_, entered.change (.scope t after)⟩

/-- Behind some copies, what is within the effects that include theirs. -/
theorem behind {made : List FuncDef} (changes : Changes w s made t) (same : t.scope = s.scope)
    (frame : (w.including made).Frame t u) : w.Frame s u where
  scope := by rw [frame.scope, same]
  locals none := (frame.locals none).trans (by rw [same])
  changes := frame.changes.imp' _ fun _ later => changes.append later

theorem nextNode (frame : w.Frame s t) : s.nextNode ≤ t.nextNode := by
  obtain ⟨made, changes⟩ := frame.changes
  exact changes.nextNode

/-- Without copies no ids are handed out. -/
theorem nextNode_eq (frame : w.Frame s t) (none : w.copies = false) :
    t.nextNode = s.nextNode := by
  obtain ⟨made, changes⟩ := frame.changes
  obtain rfl := changes.made_eq_nil none
  have same := changes.nodes_perm.length_eq
  rw [List.flatMap_nil, List.length_nil, List.length_range'] at same
  exact Nat.le_antisymm (Nat.le_of_sub_eq_zero same.symm) changes.nextNode

theorem nextVar (frame : w.Frame s t) : s.vars.next ≤ t.vars.next := by
  obtain ⟨made, changes⟩ := frame.changes
  exact changes.nextVar

theorem types {id : NodeId} (frame : w.Frame s t) (other : ¬ w.nodes id)
    (old : id < s.nextNode ∨ t.nextNode ≤ id) : t.types[id]? = s.types[id]? := by
  obtain ⟨made, changes⟩ := frame.changes
  exact changes.types other old

/-- Without copies only the given expressions are recorded. -/
theorem types_eq {id : NodeId} (frame : w.Frame s t) (none : w.copies = false) (other : ¬ w.nodes id) :
    t.types[id]? = s.types[id]? := by
  refine frame.types other ?_
  rw [frame.nextNode_eq none]
  exact Nat.lt_or_ge id s.nextNode

theorem recorded {id : NodeId} (frame : w.Frame s t) (known : s.types[id]?.isSome = true) :
    t.types[id]?.isSome = true := by
  obtain ⟨made, changes⟩ := frame.changes
  exact changes.recorded known

theorem typed {v : Var} {type : Ty} (frame : w.Frame s t) (old : v.id < s.vars.next)
    (only : ∀ given, w.retypes v.id given → given = type) (known : s.vars.get? v = some type) :
    t.vars.get? v = some type := by
  obtain ⟨made, changes⟩ := frame.changes
  exact changes.typed old only known

theorem diagnostics (frame : w.Frame s t) :
    ∃ new, t.diagnostics = s.diagnostics ++ new ∧ new.Nodup ∧ ∀ d ∈ new, d ∉ s.diagnostics := by
  obtain ⟨made, changes⟩ := frame.changes
  exact changes.diagnostics

/-- A report is the same before and behind the changes. -/
theorem diagnostic_eq (frame : w.Frame s t) (env : Env) (p : Problem) (span : Span) :
    Check.diagnostic env t.file t.scope p span = Check.diagnostic env s.file s.scope p span := by
  obtain ⟨made, changes⟩ := frame.changes
  rw [changes.file, frame.scope]
  rfl

end Frame

/-- The contract of an action that stays within the effects. -/
@[reducible]
def contract (w : Effects) : Contract where
  before _ := True
  frame := w.Frame
  refl := Frame.refl w
  trans := Frame.trans
  stable _ _ := True.intro

instance : Coe Effects Contract := ⟨contract⟩

end Effects

namespace Check
namespace Keeps

variable {α : Type} {w w' : Effects} {x : Check α} {post : α → Prop}

theorem frame (h : Keeps w x post) (env : Env) (s : State) : w.Frame s (x.outcome env s).2 :=
  (h env s True.intro).1

/-- What stays within the effects stays within greater ones. -/
theorem mono (h : Keeps w x post) (le : w ≤ w') (declares : w'.declares = false → w.declares = false) :
    Keeps w' x post := by
  intro env s _
  obtain ⟨frame, answer⟩ := h env s True.intro
  exact ⟨frame.mono le declares, answer⟩

/-- What keeps the names of the function stays within the effects of what may bind some. -/
theorem declaring (h : Keeps w x post) : Keeps w.declaring x post :=
  h.mono Effects.le_declaring fun none => nomatch none

/-! ### Scopes -/

/-- A change of the scope that is taken back. -/
theorem between {enter leave : Scope → Scope} (keeps : ∀ scope, (enter scope).locals = scope.locals)
    (restores : ∀ scope locals,
      leave { enter scope with locals := locals } = { scope with locals := locals })
    (h : Keeps w x post) : Keeps w (between enter leave x) post := by
  intro env s _
  obtain ⟨frame, answer⟩ := h env { s with scope := enter s.scope } True.intro
  have left := restores s.scope (x.outcome env { s with scope := enter s.scope }).2.scope.locals
  rw [← frame.scope] at left
  refine ⟨?_, answer⟩
  rw [outcome_between]
  apply frame.rescoped (Effects.le_refl w)
  · rw [left]
  · intro none
    rw [left, ← keeps s.scope]
    exact frame.locals none

theorem expecting {type : Option Ty} (h : Keeps w x post) : Keeps w (expecting type x) post :=
  h.between (fun _ => rfl) fun _ _ => rfl

theorem inFunction {frame : Frame} (h : Keeps w x post) : Keeps w (inFunction frame x) post :=
  h.between (fun _ => rfl) fun _ _ => rfl

theorem returning {type : Ty} (h : Keeps w x post) : Keeps w (returning type x) post :=
  h.between (fun _ => rfl) fun _ _ => rfl

theorem inClass {c : ClassId} (h : Keeps w x post) : Keeps w (inClass c x) post :=
  h.between (fun _ => rfl) fun _ _ => rfl

theorem inInstantiation {note : String} (h : Keeps w x post) :
    Keeps w (inInstantiation note x) post :=
  h.between (fun _ => rfl) fun _ _ => rfl

theorem narrowing {narrowed : Option (Var × Ty)} (h : Keeps w x post) :
    Keeps w (narrowing narrowed x) post := by
  cases narrowed with
  | none => exact h
  | some narrowed =>
    exact h.between (fun _ => rfl) fun scope locals => by simp

/-- A function has names of its own, so what binds names in it changes none around it. -/
theorem inLocalScope (h : Keeps w.declaring x post) : Keeps w (inLocalScope x) post := by
  intro env s _
  obtain ⟨frame, answer⟩ := h env { s with scope := { s.scope with locals := some ∅ } } True.intro
  refine ⟨?_, answer⟩
  simp only [Check.inLocalScope, outcome_bind, outcome_scope, outcome_between]
  refine frame.rescoped Effects.declaring_le ?_ fun _ => rfl
  rw [frame.scope]

end Keeps

variable {w : Effects}

/-! ### The changes that rules are made of -/

theorem store_keeps {node : NodeId} {type : Ty} (h : w.nodes node) : Keeps w (store node type) :=
  .of_frame fun _ s => .of_change (.record s node type h) rfl

theorem setVar_keeps {v : Var} {type : Ty} (h : w.retypes v.id type) : Keeps w (setVar v type) :=
  .of_frame fun _ s => .of_change (.retype s v type h) rfl

theorem inferVar_keeps {v : Var} {type : Ty} (h : w.infers v.id) (specific : type.isSpecific = true) :
    Keeps w (inferVar v type) :=
  .of_frame fun _ s => .of_change (.infer s v type h specific) rfl

theorem declareLocal_keeps {v : Var} (h : w.declares = true) : Keeps w (declareLocal v) :=
  .of_frame fun _ s =>
    { scope := rfl
      locals := fun none => nomatch h.symm.trans none
      changes := ⟨[], .single (.scope s _)⟩ }

theorem report_keeps {p : Problem} {span : Span} : Keeps w (report p span) := by
  refine .of_frame fun env s => ?_
  rw [outcome_report]
  split
  · exact .refl w s
  · rename_i new
    exact .of_change (.report s _ new) rfl

/-! ### Small rules -/

theorem named_keeps {fullName : String} {args : List Ty} : Keeps w (named fullName args) := by
  refine read_keeps.bind fun env _ => get_keeps.bind fun s _ => ?_
  split
  · exact .pure True.intro
  · exact .bind (.of_frame fun _ s => .of_change (.miss s fullName) rfl) fun _ _ => .pure True.intro

theorem boolType_keeps : Keeps w boolType := named_keeps

theorem strType_keeps : Keeps w strType := named_keeps

theorem checkSubtype_keeps {l r : Ty} {span : Span} {p : Problem} {call : Option String} :
    Keeps w (checkSubtype l r span p call) := by
  apply isSubtype_keeps.bind
  intro fits _
  split
  · exact report_keeps
  · exact .pure True.intro

theorem checkHasValue_keeps {t : Ty} {call : Option String} {span : Span} :
    Keeps w (checkHasValue t call span) := by
  unfold checkHasValue
  split
  · exact report_keeps
  · exact .pure True.intro

end Check
end Gradual
