import Gradual.Symbol

/-!
The classes of a program. A class is addressed by its position in the table, so every class that a
new class derives from has a smaller id.
-/

namespace Gradual

/-- A declared class. -/
structure ClassInfo where
  name : String
  fullName : String
  bases : List Instance
  /-- The order in which attributes are looked up; the class itself comes first. -/
  mro : List ClassId
  names : Std.TreeMap String Symbol
  /-- The type variable at position `i` has the id `i + 1`. -/
  typeVars : List String
  isAbstract : Bool

instance : Inhabited ClassInfo := ⟨⟨"", "", [], [], ∅, [], false⟩⟩

structure ClassTable where
  classes : Array ClassInfo

namespace ClassTable

def empty : ClassTable := ⟨#[]⟩

instance : Inhabited ClassTable := ⟨empty⟩

def size (t : ClassTable) : Nat := t.classes.size

/-- The declaration of a class. A class that the table does not hold has no bases and no names. -/
def info (t : ClassTable) (c : ClassId) : ClassInfo := t.classes.getD c default

def mro (t : ClassTable) (c : ClassId) : List ClassId := (t.info c).mro

def bases (t : ClassTable) (c : ClassId) : List Instance := (t.info c).bases

/-- The declaration of a name in the body of a class. -/
def own? (t : ClassTable) (c : ClassId) (name : String) : Option Symbol := (t.info c).names[name]?

/-- Does the class `c` derive from `ancestor`, or is it that class? -/
def derives (t : ClassTable) (c ancestor : ClassId) : Bool := (t.mro c).contains ancestor

/-- The first class of that full name. -/
def find? (t : ClassTable) (fullName : String) : Option ClassId :=
  t.classes.findIdx? (·.fullName == fullName)

/-- An instance of a class with the given type arguments. -/
def instanceOf (t : ClassTable) (c : ClassId) (args : List Ty) : Instance :=
  ⟨c, (t.info c).fullName, args⟩

def push (t : ClassTable) (i : ClassInfo) : ClassTable := ⟨t.classes.push i⟩

def modify (t : ClassTable) (c : ClassId) (f : ClassInfo → ClassInfo) : ClassTable :=
  ⟨t.classes.modify c f⟩

/-- Declares a name in the body of a class. -/
def declare (t : ClassTable) (c : ClassId) (name : String) (symbol : Symbol) : ClassTable :=
  t.modify c fun i => { i with names := i.names.insert name symbol }

@[simp] theorem size_push (t : ClassTable) (i : ClassInfo) : (t.push i).size = t.size + 1 := by
  simp [size, push]

theorem info_push_of_lt {t : ClassTable} {i : ClassInfo} {c : ClassId} (h : c < t.size) :
    (t.push i).info c = t.info c := by
  simp only [size] at h
  simp [info, push, Array.getElem?_push, Nat.ne_of_lt h]

@[simp] theorem info_push_self (t : ClassTable) (i : ClassInfo) : (t.push i).info t.size = i := by
  simp [info, push, size]

theorem info_of_le {t : ClassTable} {c : ClassId} (outside : t.size ≤ c) : t.info c = default := by
  simp only [size] at outside
  simp [info, Array.getD, Nat.not_lt.mpr outside]

theorem bases_of_le {t : ClassTable} {c : ClassId} (outside : t.size ≤ c) : t.bases c = [] := by
  rw [bases, info_of_le outside]
  rfl

theorem lt_size_of_mem_bases {t : ClassTable} {c : ClassId} {base : Instance}
    (member : base ∈ t.bases c) : c < t.size := by
  refine Nat.lt_of_not_le fun outside => ?_
  rw [bases_of_le outside] at member
  cases member

theorem forall_bases_iff {t : ClassTable} {holds : ClassId → Instance → Prop} :
    (∀ c < t.size, ∀ base ∈ t.bases c, holds c base) ↔ ∀ c, ∀ base ∈ t.bases c, holds c base :=
  ⟨fun within c base member => within c (lt_size_of_mem_bases member) base member,
    fun all c _ => all c⟩

theorem mro_of_le {t : ClassTable} {c : ClassId} (outside : t.size ≤ c) : t.mro c = [] := by
  rw [mro, info_of_le outside]
  rfl

end ClassTable

/-- The classes that the rules for types refer to. -/
structure BasicClasses where
  object : Option ClassId
  type : Option ClassId
  tuple : Option ClassId
  function : Option ClassId

def ClassTable.basic (t : ClassTable) : BasicClasses where
  object := t.find? "builtins.object"
  type := t.find? "builtins.type"
  tuple := t.find? "builtins.tuple"
  function := t.find? "builtins.function"

end Gradual
