import Gradual.Checker.Module
import Gradual.Proofs.Depth

/-!
Runs: what a block may change, and what lasts from one module to the next. Modules start with nothing
recorded and nothing reported, so what they have in common are the ids and the types of variables;
for these the checks of all modules are one chain of changes.
-/

namespace Gradual

/-! ### Blocks -/

namespace Block

/-- The variables of a block that get the types of values. -/
def introduces (b : Block) : List VarId :=
  b.stmts.flatMap fun s => s.kind.introduces ++ s.exprs.flatMap (·.introduces)

/-- What belongs to a block. -/
def effects (b : Block) : Effects where
  nodes id := id ∈ b.nodes
  retypes v type := ∃ r ∈ b.retypings, r.1 = v ∧ (r.2 = none ∨ r.2 = some type)
  infers v := v ∈ b.introduces
  copies := true
  declares := false

theorem within_effects {b : Block} : ∀ p ∈ b.places, p.stmt.Within b.effects := by
  intro p place
  have listed : p.stmt ∈ b.stmts := List.mem_map_of_mem place
  refine ⟨fun e part x inside => ⟨?_, fun r given type allowed => ?_, fun v given => ?_⟩,
    fun r given type allowed => ?_, fun v given => ?_, fun _ => rfl⟩
  · refine List.mem_flatMap.mpr ⟨p, place, List.mem_flatMap.mpr ⟨e, part, ?_⟩⟩
    exact List.mem_map_of_mem inside
  · refine ⟨r, List.mem_flatMap.mpr ⟨p, place, List.mem_append_right _ ?_⟩, rfl, allowed⟩
    exact List.mem_flatMap.mpr ⟨e, part, List.mem_flatMap.mpr ⟨x, inside, given⟩⟩
  · refine List.mem_flatMap.mpr ⟨p.stmt, listed, List.mem_append_right _ ?_⟩
    exact List.mem_flatMap.mpr ⟨x, List.mem_flatMap.mpr ⟨e, part, inside⟩, given⟩
  · exact ⟨r, List.mem_flatMap.mpr ⟨p, place, List.mem_append_left _ given⟩, rfl, allowed⟩
  · exact List.mem_flatMap.mpr ⟨p.stmt, listed, List.mem_append_left _ given⟩

/-- A variable that a block gives no type to keeps the one that it has. -/
theorem not_retypes {b : Block} {v : VarId} (h : ∀ r ∈ b.retypings, r.1 ≠ v) :
    ∀ type, ¬ b.effects.retypes v type := by
  rintro type ⟨r, given, same, -⟩
  exact h r given same

theorem check_keeps_effects (b : Block) : Check.Keeps b.effects b.check :=
  b.check_keeps (f := none) within_effects

end Block

theorem Stmt.check_keeps_effects (s : Stmt) :
    Check.Keeps (Block.effects [s]) (s.check Block.check) := by
  have copies : Check.CopiesKeep Block.check := fun _ _ b h => b.check_keeps h
  refine s.check_keeps copies (f := none) fun p place => Block.within_effects p ?_
  exact List.mem_append_left _ place

/-! ### Modules -/

/-- What is left of a state when the next module begins. -/
def State.lasting (s : State) : State :=
  { s with
    file := "", globals := ∅, scope := .outermost, types := ∅, diagnostics := [], missing := ∅ }

theorem Change.lasting {w : Effects} {s t : State} (h : Change w s t) :
    t.lasting = s.lasting ∨ Change w s.lasting t.lasting := by
  cases h with
  | scope | record | report | miss => exact .inl rfl
  | retype v type allowed => exact .inr (.retype s.lasting v type allowed)
  | infer v type allowed specific => exact .inr (.infer s.lasting v type allowed specific)

theorem Changes.lasting {w : Effects} {s t : State} {made : List FuncDef} (h : Changes w s made t) :
    Changes w s.lasting made t.lasting := by
  induction h with
  | refl => exact .refl
  | change _ last ih =>
    rcases last.lasting with same | changed
    · exact same ▸ ih
    · exact ih.change changed
  | copy _ d args shares ih => exact ih.copy d args shares

/-- What belongs to the modules of a program. -/
def Program.effects (p : Program) : Effects where
  nodes id := ∃ (name : String) (m : Module), p.modules[name]? = some m ∧ m.body.effects.nodes id
  retypes v type := ∃ (name : String) (m : Module), p.modules[name]? = some m ∧
    m.body.effects.retypes v type
  infers v := ∃ (name : String) (m : Module), p.modules[name]? = some m ∧ m.body.effects.infers v
  copies := true
  declares := false

theorem Program.effects_le {p : Program} {name : String} {m : Module}
    (known : p.modules[name]? = some m) : m.body.effects ≤ p.effects :=
  ⟨fun _ h => ⟨name, m, known, h⟩, fun _ _ h => ⟨name, m, known, h⟩,
    fun _ h => ⟨name, m, known, h⟩, id⟩

namespace Check

variable (env : Env) (s : State)

theorem checkModule_changes (m : Module) :
    ∃ made, Changes m.body.effects s.lasting made ((checkModule m).outcome env s).2.lasting := by
  have frame := m.body.check_keeps_effects.frame env ((enterModule m).outcome env s).2
  obtain ⟨made, changes⟩ := frame.changes
  exact ⟨made, changes.lasting⟩

theorem checkModuleNamed_changes (name : String) :
    ∃ made, Changes env.program.effects s.lasting made
      ((checkModuleNamed name).outcome env s).2.lasting := by
  unfold checkModuleNamed
  rw [outcome_bind, outcome_read]
  unfold Program.module?
  cases known : env.program.modules[name]? with
  | none => exact ⟨[], .refl⟩
  | some m =>
    obtain ⟨made, changes⟩ := checkModule_changes env s m
    exact ⟨made, changes.mono (Program.effects_le known)⟩

/-- However many modules are checked one after the other, it is a chain of changes. -/
theorem checkModules_changes (names : List String) :
    ∃ made, Changes env.program.effects s.lasting made
      ((names.mapM checkModuleNamed).outcome env s).2.lasting := by
  induction names generalizing s with
  | nil => exact ⟨[], .refl⟩
  | cons name rest ih =>
    rw [List.mapM_cons]
    obtain ⟨made, first⟩ := checkModuleNamed_changes env s name
    obtain ⟨made', others⟩ := ih ((checkModuleNamed name).outcome env s).2
    exact ⟨made ++ made', first.trans others⟩

end Check

end Gradual
