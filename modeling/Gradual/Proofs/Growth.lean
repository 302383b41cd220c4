import Gradual.Proofs.Builders
import Gradual.Proofs.Coherence

/-!
Class tables that grow from what the language provides. In all of them one class is behind all others,
the classes that types fall back to stay the same, and the bases of a class mention only classes that come
before it.
-/

namespace Gradual

/-- The bases of each class mention only classes before it, one class is behind all others, and the
classes that types fall back to are there. -/
structure ClassTable.Rooted (t : ClassTable) : Prop where
  linearized : t.Linearized
  earlier : t.MentionsEarlier t.basic
  object : ∃ c < t.size, t.basic.object = some c ∧ ∀ d < t.size, t.derives d c = true
  fallbacks : ∀ c ∈ (TypeOrder.ofClasses t).fallbackClasses, ∃ d < t.size, c = some d

namespace ClassTable

variable {t : ClassTable} {c d : ClassId} {i : ClassInfo} {name : String}

theorem bases_push (t : ClassTable) (i : ClassInfo) (c : ClassId) :
    (t.push i).bases c = if c = t.size then i.bases else t.bases c := by
  by_cases new : c = t.size
  · rw [if_pos new, bases, new, info_push_self]
  · rw [if_neg new]
    by_cases within : c < t.size
    · rw [bases, bases, info_push_of_lt within]
    · rw [bases_of_le (Nat.le_of_not_lt within), bases_of_le]
      rw [size_push]
      exact Nat.succ_le_of_lt (Nat.lt_of_le_of_ne (Nat.le_of_not_lt within) (Ne.symm new))

theorem derives_push_of_lt (known : c < t.size) : (t.push i).derives c d = t.derives c d := by
  rw [derives, derives, mro, mro, info_push_of_lt known]

theorem find?_push_of_some (found : t.find? name = some c) : (t.push i).find? name = some c := by
  rw [find?] at found ⊢
  rw [push, Array.findIdx?_push, found, Option.some_or]

theorem find?_modify {f : ClassInfo → ClassInfo} (kept : ∀ i, (f i).fullName = i.fullName) :
    (t.modify d f).find? name = t.find? name := by
  have names : (t.classes.modify d f).map (·.fullName) = t.classes.map (·.fullName) := by
    apply Array.ext
    · simp
    · intro n _ _
      simp only [Array.getElem_map, Array.getElem_modify]
      split <;> simp [kept]
  have search (classes : Array ClassInfo) : classes.findIdx? (·.fullName == name) =
      (classes.map (·.fullName)).findIdx? (· == name) := by
    rw [Array.findIdx?_map]
    rfl
  rw [find?, find?, search, search]
  exact congrArg _ names

theorem basic_modify {f : ClassInfo → ClassInfo} (kept : ∀ i, (f i).fullName = i.fullName) :
    (t.modify d f).basic = t.basic := by
  simp only [basic, find?_modify kept]

namespace Rooted

variable (rooted : t.Rooted)
include rooted

theorem basic_push : (t.push i).basic = t.basic := by
  have stays {name : String} {c : ClassId} (found : t.find? name = some c) :
      (t.push i).find? name = t.find? name := (find?_push_of_some found).trans found.symm
  obtain ⟨_, -, object, -⟩ := rooted.object
  obtain ⟨_, -, tuple⟩ := rooted.fallbacks t.basic.tuple (by simp [TypeOrder.fallbackClasses, TypeOrder.ofClasses])
  obtain ⟨_, -, type⟩ := rooted.fallbacks t.basic.type (by simp [TypeOrder.fallbackClasses, TypeOrder.ofClasses])
  obtain ⟨_, -, function⟩ := rooted.fallbacks t.basic.function (by simp [TypeOrder.fallbackClasses, TypeOrder.ofClasses])
  rw [basic, basic, stays object, stays tuple, stays type, stays function]

theorem push (given : i.bases ≠ [])
    (known : ∀ base ∈ i.bases, ∀ d ∈ base.toTy.mentioned t.basic, d < t.size)
    (made : let bases := i.bases.map (·.cls)
      i.mro = t.size :: Linearize.ancestors (bases.map t.mro) bases) : (t.push i).Rooted := by
  have lin := rooted.linearized.push made
  have earlier : (t.push i).MentionsEarlier (t.push i).basic := by
    rw [rooted.basic_push]
    intro c base member d inside
    rw [bases_push] at member
    split at member
    · rename_i new
      exact new ▸ known base member d inside
    · exact rooted.earlier c base member d inside
  refine ⟨lin, earlier, ?_, ?_⟩
  · obtain ⟨root, low, object, above⟩ := rooted.object
    refine ⟨root, ?_, by rw [rooted.basic_push, object], fun d inside => ?_⟩
    · rw [size_push]
      exact Nat.lt_succ_of_lt low
    rw [size_push] at inside
    rcases Nat.lt_succ_iff_lt_or_eq.mp inside with old | rfl
    · rw [derives_push_of_lt old]
      exact above d old
    · obtain ⟨base, member⟩ := List.exists_mem_of_ne_nil _ given
      have own := known base member base.cls List.mem_cons_self
      have behind : (t.push i).derives base.cls root = true := by
        rw [derives_push_of_lt own]
        exact above base.cls own
      rw [derives_iff_reaches lin earlier.basesEarlier] at behind ⊢
      refine ⟨by rw [size_push]; exact inside, reaches_iff.mpr (.inr ⟨base, ?_, behind.2⟩)⟩
      rw [bases_push, if_pos rfl]
      exact member
  · intro c listed
    rw [TypeOrder.fallbackClasses, TypeOrder.ofClasses, rooted.basic_push] at listed
    obtain ⟨d, inside, rfl⟩ := rooted.fallbacks c listed
    exact ⟨d, by rw [size_push]; exact Nat.lt_succ_of_lt inside, rfl⟩

theorem modify {f : ClassInfo → ClassInfo} (bases : ∀ i, (f i).bases = i.bases)
    (mro : ∀ i, (f i).mro = i.mro) (names : ∀ i, (f i).fullName = i.fullName) :
    (t.modify d f).Rooted := by
  have basic : (t.modify d f).basic = t.basic := basic_modify names
  refine ⟨rooted.linearized.modify bases mro, ?_, ?_, ?_⟩
  · rw [basic, MentionsEarlier, bases_modify bases]
    exact rooted.earlier
  · obtain ⟨root, low, object, above⟩ := rooted.object
    rw [size_modify]
    refine ⟨root, low, basic ▸ object, fun c inside => ?_⟩
    rw [derives, mro_modify mro]
    exact above c inside
  · intro c listed
    rw [TypeOrder.fallbackClasses, TypeOrder.ofClasses, basic] at listed
    rw [size_modify]
    exact rooted.fallbacks c listed

end Rooted
end ClassTable

/-! ### Builders -/

open Builder

/-- A builder that was begun with what the language provides. No class declared since is another one of
all values, and the bases of each mention only classes that are there. -/
inductive Builder.Grown : Builder → Prop
  | new : Grown .new
  | newClass {b : Builder} (h : Grown b) {name : String} (typeVars : List String) {bases : List Instance}
      (other : b.qualify name ≠ "builtins.object")
      (known : ∀ base ∈ bases, ∀ c ∈ base.toTy.mentioned b.classes.basic, c < b.classes.size) :
      Grown ((Builder.newClass name typeVars bases).run b).2
  | setAbstract {b : Builder} (h : Grown b) (c : ClassId) : Grown ((Builder.setAbstract c).run b).2
  | declare {b : Builder} (h : Grown b) (c : ClassId) (name : String) (symbol : Symbol) :
      Grown ((Builder.declare c name symbol).run b).2
  /-- All else leaves the classes as they are. -/
  | elsewhere {b b' : Builder} (h : Grown b) (classes : b'.classes = b.classes)
      (object : b'.object = b.object) : Grown b'

namespace Builder.Grown

theorem rooted_new : Builder.new.classes.Rooted ∧ Builder.new.object = Builder.new.classes.basic.object := by
  refine ⟨⟨Built.new.linearized, by decide +kernel, ⟨0, ?_⟩, ?_⟩, by decide +kernel⟩
  · exact ⟨by decide +kernel, by decide +kernel, by decide +kernel⟩
  · decide +kernel

theorem rooted {b : Builder} (grown : Grown b) :
    b.classes.Rooted ∧ b.object = b.classes.basic.object := by
  induction grown with
  | new => exact rooted_new
  | @newClass b _ name typeVars bases other known ih =>
    obtain ⟨rooted, object⟩ := ih
    obtain ⟨root, inside, found, -⟩ := rooted.object
    let made : List Instance :=
      if bases.isEmpty && b.qualify name != "builtins.object" then
        (b.object.map fun c => b.classes.instanceOf c []).toList
      else bases
    have grows : (∀ base ∈ made, ∀ c ∈ base.toTy.mentioned b.classes.basic, c < b.classes.size) ∧
        made ≠ [] := by
      cases bases with
      | nil =>
        -- A class without bases derives from the class of all values.
        have object : made = [b.classes.instanceOf root []] := by
          simp [made, other, object, found]
        rw [object]
        simpa [Instance.toTy, ClassTable.instanceOf, Ty.mentioned, mentionedByEach] using inside
      | cons first rest => exact ⟨known, List.cons_ne_nil first rest⟩
    refine ⟨rooted.push grows.2 grows.1 rfl, ?_⟩
    exact object.trans (congrArg BasicClasses.object rooted.basic_push).symm
  | @setAbstract b _ c ih | @declare b _ c _ _ ih =>
    refine ⟨ih.1.modify (fun _ => rfl) (fun _ => rfl) fun _ => rfl, ?_⟩
    show b.object = (b.classes.modify c _).basic.object
    rw [ClassTable.basic_modify]
    · exact ih.2
    · exact fun _ => rfl
  | elsewhere _ classes object ih =>
    rw [classes, object]
    exact ih

end Builder.Grown
end Gradual
