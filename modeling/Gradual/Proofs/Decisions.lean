import Gradual.Proofs.Mentions
import Mathlib.Data.List.Forall2

/-!
Subtyping without its steps. Where every comparison comes to an end, one type is a subtype of another
exactly if their parts are as the rules say.
-/

namespace Gradual.TypeOrder

theorem forall₂_of_mem {α β : Type} {R S : α → β → Prop} {xs : List α} {ys : List β}
    (each : ∀ x ∈ xs, ∀ y ∈ ys, R x y → S x y) (h : List.Forall₂ R xs ys) : List.Forall₂ S xs ys := by
  rw [List.forall₂_iff_zip] at h ⊢
  refine ⟨h.1, fun {x y} member => ?_⟩
  obtain ⟨left, right⟩ := List.of_mem_zip member
  exact each x left y right (h.2 member)

/-- Every comparison comes to an end. -/
def Decides (o : TypeOrder) : Prop := ∀ l r, o.Ends l r

theorem decides_of_mentionsEarlier {t : ClassTable} (earlier : t.MentionsEarlier t.basic) :
    (ofClasses t).Decides := fun l r =>
  (weighs_of_mentionsEarlier earlier).subtypeWithin_isSome ((ofClasses t).weight_le_budget l r)

/-- How types compare, for the rules that compare their parts. -/
def compare (o : TypeOrder) (l r : Ty) : Option Bool := some (o.isSubtype l r)

variable {o : TypeOrder} {l r : Ty} {i j : Instance} {as bs : List Ty}

theorem compare_eq_some_true : o.compare l r = some true ↔ o.isSubtype l r = true := by
  rw [compare, Option.some_inj]

namespace Decides

variable (decides : o.Decides)
include decides

/-- What any number of steps answers is the case. -/
theorem compare_extends (steps : Nat) : Extends o.compare (o.subtypeWithin steps) := by
  intro s t b answer
  obtain ⟨c, known⟩ := Option.isSome_iff_exists.mp (decides s t)
  have first := subtypeWithin_extends (Nat.le_max_left steps (o.budget s t)) s t b answer
  have second := subtypeWithin_extends (Nat.le_max_right steps (o.budget s t)) s t c known
  rw [compare, isSubtype, known, Option.getD_some]
  exact second.symm.trans first

theorem answer_eq (l r : Ty) : (o.question l r).answer o o.compare = some (o.isSubtype l r) := by
  obtain ⟨steps, enough⟩ := Nat.exists_eq_add_one.mpr (o.budget_pos l r)
  obtain ⟨b, known⟩ := Option.isSome_iff_exists.mp (decides l r)
  have answered := known
  rw [subtype?, enough, subtypeWithin_succ] at answered
  rw [(decides.compare_extends steps).answer answered, isSubtype, known]
  rfl

/-! ### Rules -/

theorem isSubtype_iff :
    o.isSubtype l r = true ↔ (o.question l r).answer o o.compare = some true := by
  rw [decides.answer_eq, Option.some_inj]

theorem dynamic_le (h : l.isDynamic = true) : o.isSubtype l r = true := by
  have asked : o.question l r = .settled true := if_pos (by simp [h])
  rw [decides.isSubtype_iff, asked]
  rfl

theorem le_dynamic (h : r.isDynamic = true) : o.isSubtype l r = true := by
  have asked : o.question l r = .settled true := if_pos (by simp [h])
  rw [decides.isSubtype_iff, asked]
  rfl

theorem le_void_iff : o.isSubtype l .void = true ↔ l.isDynamic = true ∨ l = .void := by
  rw [decides.isSubtype_iff]
  cases l <;> simp [question, Question.answer, Ty.isDynamic, Ty.isVoid]

theorem void_le_iff : o.isSubtype .void r = true ↔ r.isDynamic = true ∨ r = .void := by
  rw [decides.isSubtype_iff]
  cases r <;> simp [question, Question.answer, Ty.isDynamic, Ty.isVoid]

/-- Between what has no value nothing is lost. -/
theorem le_of_le_void (first : o.isSubtype l .void = true) (second : o.isSubtype .void r = true) :
    o.isSubtype l r = true := by
  rcases decides.le_void_iff.mp first with dynamic | rfl
  · exact decides.dynamic_le dynamic
  · exact second

theorem noneType_le (h : r ≠ .void) : o.isSubtype .noneType r = true := by
  rw [decides.isSubtype_iff]
  cases r <;> simp_all [question, Question.answer, Ty.isDynamic]

/-- A type variable counts as its bound, except where it is expected itself. -/
theorem typeVar_le_iff {v : TypeVar} (h : r ≠ .void) :
    o.isSubtype (.typeVar v) r = true ↔
      (∃ w, r = .typeVar w ∧ v.id = w.id) ∨ o.isSubtype v.upperBound r = true := by
  cases r with
  | any | unbound | error => exact ⟨fun _ => .inr (decides.le_dynamic rfl), fun _ => decides.le_dynamic rfl⟩
  | void => contradiction
  | typeVar w =>
    rw [decides.isSubtype_iff]
    by_cases same : v.id = w.id <;>
      simp [question, Question.answer, Ty.isDynamic, same, compare_eq_some_true]
  | noneType | inst | callable | overloaded | tuple =>
    rw [decides.isSubtype_iff]
    simp [question, Question.answer, Ty.isDynamic, compare_eq_some_true]

theorem inst_le_iff : o.isSubtype i.toTy j.toTy = true ↔
    ∃ view, o.classes.view? i j.cls = some view ∧
      ∀ p ∈ view.args.zip j.args, o.isSubtype p.1 p.2 = true := by
  have asked : o.question i.toTy j.toTy = .instances (some i) j := rfl
  rw [decides.isSubtype_iff, asked]
  simp only [Question.answer, instanceLe]
  cases o.classes.view? i j.cls <;> simp [argsLe, allM_eq_some_true_iff, compare_eq_some_true]

/-- Instances of one class compare by their type arguments. -/
theorem inst_le_of_args {c : ClassId} {m n : String}
    (h : List.Forall₂ (fun a b => o.isSubtype a b = true) as bs) :
    o.isSubtype (.inst c m as) (.inst c n bs) = true := by
  have own : o.classes.view? ⟨c, m, as⟩ c = some ⟨c, m, as⟩ := ClassTable.view?_self _ ⟨c, m, as⟩
  refine (decides.inst_le_iff (i := ⟨c, m, as⟩) (j := ⟨c, n, bs⟩)).mpr ⟨_, own, fun p member => ?_⟩
  exact (List.forall₂_iff_zip.mp h).2 member

theorem tuple_le_iff : o.isSubtype (.tuple as) (.tuple bs) = true ↔
    List.Forall₂ (fun a b => o.isSubtype a b = true) as bs := by
  have asked : o.question (.tuple as) (.tuple bs) =
      if as.length = bs.length then .args as bs else .settled false := rfl
  rw [decides.isSubtype_iff, asked, List.forall₂_iff_zip]
  by_cases same : as.length = bs.length
  · simp [same, Question.answer, argsLe, allM_eq_some_true_iff, compare_eq_some_true]
  · simp [same, Question.answer]

/-- A tuple is an instance of what it falls back to. -/
theorem tuple_le_inst_iff (fallen : o.fallback? (.tuple as) = some i) :
    o.isSubtype (.tuple as) j.toTy = true ↔ o.isSubtype i.toTy j.toTy = true := by
  have asked : o.question (.tuple as) j.toTy = .instances (o.fallback? (.tuple as)) j := rfl
  have own : o.question i.toTy j.toTy = .instances (some i) j := rfl
  rw [decides.isSubtype_iff, decides.isSubtype_iff, asked, own, fallen]

/-- So is a function. -/
theorem callable_le_inst_iff {s : Signature} (fallen : o.fallback? (.callable s) = some i) :
    o.isSubtype (.callable s) j.toTy = true ↔ o.isSubtype i.toTy j.toTy = true := by
  have asked : o.question (.callable s) j.toTy = .instances (o.fallback? (.callable s)) j := rfl
  have own : o.question i.toTy j.toTy = .instances (some i) j := rfl
  rw [decides.isSubtype_iff, decides.isSubtype_iff, asked, own, fallen]

/-- Signatures that quantify nothing compare by their parts. -/
theorem callable_le_iff {s t : Signature} (plain : s.quantified = []) (plain' : t.quantified = []) :
    o.isSubtype (.callable s) (.callable t) = true ↔ PlainFits o.compare s t := by
  have asked : o.question (.callable s) (.callable t) = .signatures s t := rfl
  rw [decides.isSubtype_iff, asked, Question.answer, signatureLe, plain, plain']
  exact plainSignatureLe_eq_some_true_iff

end Decides
end Gradual.TypeOrder
