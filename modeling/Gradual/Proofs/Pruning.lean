import Gradual.Proofs.Traces

/-!
Pruned code: of the branches of an if statement those are skipped that the guards rule out, and
nothing else is recorded than what a statement is made of.
-/

namespace Gradual

open Check

/-- The ids of a program are not handed out again, however many modules are checked. -/
theorem not_handedOut_of_lt {p : Program} {options : Options} {earlier : List String} {u : State}
    {id : NodeId} (own : id < p.nextNode) :
    ¬ HandedOut (p.run options (earlier.mapM checkModuleNamed)).2 u id := by
  obtain ⟨made, changes⟩ := checkModules_changes (.ofProgram p options) (.initial p) earlier
  have grown : p.nextNode ≤ (p.run options (earlier.mapM checkModuleNamed)).2.nextNode :=
    changes.nextNode
  rintro ⟨new, -⟩
  exact absurd own (Nat.not_lt.mpr (Nat.le_trans grown new))

/-- Checking a statement records types for the expressions in it and for new ids only, and only adds
reports, none of which was there. If no two expressions have the same id, and none has one that is
handed out, then nothing is recorded in the branches that the guards rule out, wherever in the
statement they are; and in a module such branches have no types when the module has been checked,
whatever was checked before it. -/
theorem check_records_own_nodes_and_no_pruned_code :
    (∀ (env : Env) (s : State) (stmt : Stmt),
      let t := ((stmt.check Block.check).outcome env s).2
      (∀ id, t.types[id]? ≠ s.types[id]? → id ∈ Block.nodes [stmt] ∨ HandedOut s t id) ∧
      (∃ new, t.diagnostics = s.diagnostics ++ new ∧ new.Nodup ∧ ∀ d ∈ new, d ∉ s.diagnostics) ∧
      ((Block.nodes [stmt]).Nodup → (∀ id ∈ Block.nodes [stmt], ¬ HandedOut s t id) →
        ∀ d ∈ decisionsIn (stmt.events Block.check Block.events env s), ∀ id ∈ d.pruned,
          t.types[id]? = s.types[id]?)) ∧
    ∀ (p : Program) (options : Options) (earlier : List String) (m : Module),
      let env : Env := .ofProgram p options
      let before := (p.run options (earlier.mapM checkModuleNamed)).2
      let after := ((checkModule m).outcome env before).2
      m.body.nodes.Nodup → (∀ id ∈ m.body.nodes, ¬ HandedOut before after id) →
        ∀ d ∈ decisionsIn (m.events env before), ∀ id ∈ d.pruned,
          ((checkModule m).outcome env before).1.types[id]? = none := by
  refine ⟨?_, ?_⟩
  · intro env s stmt t
    have spared := (stmt.check_traces_self env s).spares
    refine ⟨fun id changed => ?_, (stmt.check_keeps_effects.frame env s).diagnostics,
      spared.pruned⟩
    by_contra other
    rw [not_or] at other
    exact changed (spared.types id other.1 other.2)
  · intro p options earlier m env before after distinct old d member id skipped
    have spared := (m.body.check_traces env ((enterModule m).outcome env before).2).spares
    have kept := spared.pruned distinct old d member id skipped
    have empty : ((enterModule m).outcome env before).2.types[id]? = none :=
      Std.TreeMap.getElem?_emptyc
    exact kept.trans empty

/-! ### A module -/

/-- Two classes that have no instance in common. -/
def ClassTable.intAndStr : ClassTable :=
  ⟨#[⟨"int", "builtins.int", [], [0], ∅, [], false⟩,
    ⟨"str", "builtins.str", [], [1], ∅, [], false⟩]⟩

/-- A test of a variable against a class, with ids from `id` on. -/
def Expr.instanceTest (id : NodeId) (className : String) (c : ClassId) : Expr :=
  let named (id : NodeId) (fullName : String) (symbol : Symbol) : Expr :=
    ⟨id, .atLine 1, .name ⟨fullName, fullName, .inModule, symbol, false⟩⟩
  ⟨id + 3, .atLine 1, .call (named (id + 1) "builtins.isinstance" (.module "builtins"))
    [⟨.pos, none, named id "x" (.var ⟨0, "x", "x", none⟩)⟩,
      ⟨.pos, none, named (id + 2) className (.cls c)⟩]⟩

/-- A statement without a meaning of its own. -/
def Stmt.placeholder (id : NodeId) : Stmt := ⟨.atLine 1, .expr ⟨id, .atLine 1, .placeholder none⟩⟩

/-- An integer is tested to be a string, and then to be an integer. -/
def Module.branches : Module :=
  ⟨"m", "m.py",
    [⟨.atLine 1, .ifElse
      [⟨.instanceTest 0 "builtins.str" 1, [.placeholder 4]⟩,
        ⟨.instanceTest 5 "builtins.int" 0, [.placeholder 9]⟩]
      (some [.placeholder 10])⟩], ∅⟩

def Program.branches : Program :=
  ⟨(∅ : Std.TreeMap String Module).insert "m" .branches, .intAndStr, 11,
    ⟨1, .ofList [(0, Ty.inst 0 "builtins.int" [])]⟩⟩

/-- Of the three branches the second one is checked. -/
theorem branches_check_second :
    let r := ((checkModule .branches).outcome (.ofProgram .branches default)
      (.initial .branches)).1
    r.types[4]? = none ∧ r.types[9]? = some .any ∧ r.types[10]? = none := by
  intro r
  have decided : (decisionsIn (Module.branches.events (.ofProgram .branches default)
      (.initial .branches))).map (·.pruned) = [[4], [10]] := by decide +kernel
  have unrecorded : ∀ id : NodeId, [id] ∈ [[4], [10]] → r.types[id]? = none := by
    intro id listed
    rw [← decided] at listed
    obtain ⟨d, member, pruned⟩ := List.mem_map.mp listed
    have below : ∀ id ∈ Module.branches.body.nodes, id < Program.branches.nextNode := by
      decide +kernel
    exact check_records_own_nodes_and_no_pruned_code.2 .branches default [] .branches
      (by decide +kernel) (fun id own => not_handedOut_of_lt (below id own)) d member id
      (by simp [pruned])
  exact ⟨unrecorded 4 (by decide), by with_unfolding_all rfl, unrecorded 10 (by decide)⟩

end Gradual
