import Gradual.Proofs.Isolation
import Gradual.Proofs.Runs
import Gradual.Proofs.ScopeBalance
import Gradual.Proofs.StmtAgreement

/-!
Independence: the check of a module depends on the modules that were checked before it only through the
types of variables. What else is left of them is the next id, from which the copies in the module get
theirs; no other id depends on it, and no report.
-/

namespace Gradual

open Check

/-! ### Ids of copies -/

/-- Ids from the first on that no expression of a program has, moved by a distance. -/
def NodeId.moved (first distance : NodeId) (id : NodeId) : NodeId :=
  if id < first then id else id + distance

namespace NodeId

variable {first distance : NodeId}

theorem moved_of_lt {id : NodeId} (h : id < first) : moved first distance id = id := if_pos h

theorem moved_add (k : Nat) : moved first distance (first + k) = first + distance + k := by
  unfold moved
  rw [if_neg (Nat.not_lt.mpr (Nat.le_add_right ..)), Nat.add_right_comm]

theorem moved_injective (i j : NodeId) (same : moved first distance i = moved first distance j) :
    i = j := by
  unfold moved at same
  split at same <;> rename_i hi <;> split at same <;> rename_i hj
  · exact same
  · exact absurd (Nat.lt_of_le_of_lt (Nat.le_add_right ..) (same ▸ hi)) hj
  · exact absurd (Nat.lt_of_le_of_lt (Nat.le_add_right ..) (same.symm ▸ hj)) hi
  · exact Nat.add_right_cancel same

end NodeId

/-! ### Reports -/

/-- Reports with the same diagnostics that record the same types, under different ids. -/
structure Report.Alike (ρ : NodeId → NodeId) (r r' : Report) : Prop where
  module : r'.module = r.module
  diagnostics : r'.diagnostics = r.diagnostics
  types : ∀ id, r'.types[ρ id]? = r.types[id]?

namespace Check

variable {ρ : NodeId → NodeId} {env : Env} {m : Module} {s t : State}

/-- What is found out about a module does not depend on what is told by ids where it is entered. -/
theorem checkModule_alike (own : ∀ id ∈ m.body.nodes, ρ id = id)
    (entered : ((enterModule m).outcome env s).2.Alike ρ ((enterModule m).outcome env t).2) :
    ((checkModule m).outcome env s).1.Alike ρ ((checkModule m).outcome env t).1 := by
  have told : Agree (State.Alike ρ) (Report.Alike ρ)
      (do
        Block.check m.body
        let s ← get
        return Report.mk m.name s.types (s.diagnostics ++ missingReports s.file s.missing))
      (do
        Block.check m.body
        let s ← get
        return Report.mk m.name s.types (s.diagnostics ++ missingReports s.file s.missing)) := by
    refine (m.body.check_blind own).seq fun _ => get_alike.bind fun s t alike => .pure ?_
    cases alike with
    | intro types n injective recorded next => exact ⟨rfl, rfl, recorded⟩
  exact (told env _ _ entered).1

theorem outcome_enterModule :
    (enterModule m).outcome env s =
      ((), { s with
        file := m.path, globals := m.names, types := ∅, diagnostics := [], missing := ∅
        scope := { s.scope with locals := none, binder := .empty } }) := rfl

/-- A module is entered with the same knowledge from states with the same scope and the same types of
variables, but for the next id. -/
theorem enterModule_alike {distance : Nat} (vars : t.vars = s.vars) (scope : t.scope = s.scope)
    (nextNode : t.nextNode = s.nextNode + distance) :
    ((enterModule m).outcome env s).2.Alike (NodeId.moved s.nextNode distance)
      ((enterModule m).outcome env t).2 := by
  rw [outcome_enterModule, outcome_enterModule]
  dsimp only
  rw [vars, scope, nextNode]
  exact .intro ∅ _ NodeId.moved_injective (fun id => by simp) NodeId.moved_add

theorem checkModuleNamed_eq {name : String} (known : env.program.modules[name]? = some m) :
    (checkModuleNamed name).outcome env s =
      (.ok ((checkModule m).outcome env s).1, ((checkModule m).outcome env s).2) := by
  unfold checkModuleNamed Program.module?
  rw [outcome_bind, outcome_read, known]
  rfl

theorem checkModuleNamed_unknown {name : String} (unknown : env.program.modules[name]? = none) :
    (checkModuleNamed name).outcome env s = (.error (.unknownModule name), s) := by
  unfold checkModuleNamed Program.module?
  rw [outcome_bind, outcome_read, unknown]
  rfl

/-- Ids that were handed out are not taken back. -/
theorem nextNode_le_checkModules (env : Env) (s : State) (names : List String) :
    s.nextNode ≤ ((names.mapM checkModuleNamed).outcome env s).2.nextNode := by
  obtain ⟨made, changes⟩ := checkModules_changes env s names
  exact changes.nextNode

end Check

/-- Where the ids in the modules of a program are below its first free one, a module that is checked
after others, and after names of no modules, is found to be what it is found to be when it is checked
first with the same types of variables: the diagnostics are the same in the same order, and so are the
types for all ids below the first free one. A name of no module is answered by an error, and nothing
changes. -/
theorem check_independent_of_earlier (p : Program) (options : Options)
    (numbered : ∀ (name : String) (m : Module), p.modules[name]? = some m →
      ∀ id ∈ m.body.nodes, id < p.nextNode)
    (names : List String) (name : String) (vars : VarTypes) :
    let env := Env.ofProgram p options
    let fresh := { State.initial p with vars }
    let used := { (p.run options (names.mapM checkModuleNamed)).2 with vars }
    (∀ m, p.modules[name]? = some m → ∃ r r',
      ((checkModuleNamed name).outcome env fresh).1 = .ok r ∧
      ((checkModuleNamed name).outcome env used).1 = .ok r' ∧
      r'.module = r.module ∧ r'.diagnostics = r.diagnostics ∧
      ∀ id < p.nextNode, r'.types[id]? = r.types[id]?) ∧
    (p.modules[name]? = none →
      (checkModuleNamed name).outcome env fresh = (.error (.unknownModule name), fresh) ∧
      (checkModuleNamed name).outcome env used = (.error (.unknownModule name), used)) := by
  intro env fresh used
  refine ⟨fun m known => ?_, fun unknown =>
    ⟨checkModuleNamed_unknown unknown, checkModuleNamed_unknown unknown⟩⟩
  have outermost : used.scope = .outermost := checkModules_scope names env (.initial p) rfl
  have grown : p.nextNode ≤ used.nextNode := nextNode_le_checkModules env (.initial p) names
  obtain ⟨distance, nextNode⟩ := Nat.exists_eq_add_of_le grown
  have alike : Report.Alike (NodeId.moved p.nextNode distance) ((checkModule m).outcome env fresh).1
      ((checkModule m).outcome env used).1 := by
    refine checkModule_alike (fun id own => ?_) ?_
    · exact NodeId.moved_of_lt (numbered name m known id own)
    · exact enterModule_alike (s := fresh) (t := used) rfl outermost nextNode
  refine ⟨_, _, congrArg Prod.fst (checkModuleNamed_eq known),
    congrArg Prod.fst (checkModuleNamed_eq known), alike.module, alike.diagnostics,
    fun id own => ?_⟩
  rw [← alike.types, NodeId.moved_of_lt own]

/-- A module whose function is checked in copies, checked again after itself and after one that there is
not. -/
theorem keeping_checked_again :
    let p := Builder.keeping.toProgram
    let env := Env.ofProgram p default
    let fresh := { State.initial p with vars := p.vars }
    let used := { (p.run default (["m", "nowhere"].mapM checkModuleNamed)).2 with vars := p.vars }
    (∃ r r',
      ((checkModuleNamed "m").outcome env fresh).1 = .ok r ∧
      ((checkModuleNamed "m").outcome env used).1 = .ok r' ∧
      r'.diagnostics = r.diagnostics ∧ r'.types[1]? = r.types[1]?) ∧
    (checkModuleNamed "nowhere").outcome env used = (.error (.unknownModule "nowhere"), used) := by
  have own : 1 < Builder.keeping.toProgram.nextNode := by decide +kernel
  have absent : Builder.keeping.toProgram.modules["nowhere"]?.isNone = true := by decide +kernel
  have added : Builder.keeping.toProgram.modules["m"]?.map (·.body) =
      some [⟨.atLine 1, .func .keep⟩] := by
    with_unfolding_all rfl
  intro p env fresh used
  obtain ⟨made, built⟩ := Builder.keeping_built
  have independent := fun name => check_independent_of_earlier p default built.numbered.modules
    ["m", "nowhere"] name p.vars
  obtain ⟨m, known, -⟩ := Option.map_eq_some_iff.mp added
  obtain ⟨r, r', first, again, -, diagnostics, types⟩ := (independent "m").1 m known
  refine ⟨⟨r, r', first, again, diagnostics, types 1 own⟩, ?_⟩
  exact ((independent "nowhere").2 (Option.isNone_iff_eq_none.mp absent)).2

end Gradual
