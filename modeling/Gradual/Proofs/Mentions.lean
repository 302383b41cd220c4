import Gradual.Proofs.Joins

/-!
Classes that types mention. Where the bases of each class mention only classes that come before it,
every comparison and every join comes to an end: a type that falls back to a class can get deeper, but
what is compared instead of it mentions only classes that come before that class, so on either side
this happens at most once for each class that types fall back to.
-/

namespace Gradual

/-! ### Classes in types -/

/-- The class that functions or type objects count as. -/
def BasicClasses.ofCallable (b : BasicClasses) (isTypeObject : Bool) : Option ClassId :=
  if isTypeObject then b.type else b.function

section Mentioned

variable (b : BasicClasses)

mutual

/-- The classes of the instances in a type and those that the tuples and functions in it count as.
What a type variable is bounded by stands for it. -/
def Ty.mentioned : Ty → List ClassId
  | .any | .void | .noneType | .unbound _ | .error => []
  | .inst c _ args => c :: mentionedByEach args
  | .callable s => s.mentioned
  | .overloaded items =>
    (b.ofCallable (Ty.overloaded items).isTypeObject).toList ++ mentionedBySignatures items
  | .tuple items => b.tuple.toList ++ mentionedByEach items
  | .typeVar ⟨_, _, _, upperBound⟩ => upperBound.mentioned

def Signature.mentioned : Signature → List ClassId
  | ⟨argTypes, _, _, ret, _, isTypeObject, _, _⟩ =>
    (b.ofCallable isTypeObject).toList ++ (ret.mentioned ++ mentionedByEach argTypes)

def mentionedByEach : List Ty → List ClassId
  | [] => []
  | t :: ts => t.mentioned ++ mentionedByEach ts

def mentionedBySignatures : List Signature → List ClassId
  | [] => []
  | s :: ss => s.mentioned ++ mentionedBySignatures ss

end

variable {b} {d : ClassId}

@[simp] theorem mem_mentionedByEach {ts : List Ty} :
    d ∈ mentionedByEach b ts ↔ ∃ t ∈ ts, d ∈ t.mentioned b := by
  induction ts with
  | nil => simp [mentionedByEach]
  | cons t ts ih => simp [mentionedByEach, ih]

@[simp] theorem mem_mentionedBySignatures {ss : List Signature} :
    d ∈ mentionedBySignatures b ss ↔ ∃ s ∈ ss, d ∈ s.mentioned b := by
  induction ss with
  | nil => simp [mentionedBySignatures]
  | cons s ss ih => simp [mentionedBySignatures, ih]

theorem Signature.mem_mentioned {s : Signature} :
    d ∈ s.mentioned b ↔ b.ofCallable s.isTypeObject = some d ∨ d ∈ s.ret.mentioned b ∨
      ∃ t ∈ s.argTypes, d ∈ t.mentioned b := by
  cases s
  simp [Signature.mentioned]

/-- A part mentions no class that the whole does not mention. -/
theorem Ty.mentioned_of_part {t u : Ty} (part : u ∈ t.parts) (h : d ∈ u.mentioned b) :
    d ∈ t.mentioned b := by
  cases t with
  | inst c n args => simp [Ty.mentioned, show ∃ a ∈ args, d ∈ a.mentioned b from ⟨u, part, h⟩]
  | tuple items => simp [Ty.mentioned, show ∃ a ∈ items, d ∈ a.mentioned b from ⟨u, part, h⟩]
  | callable s =>
    rw [Ty.mentioned, Signature.mem_mentioned]
    rcases List.mem_cons.mp part with rfl | formal
    · exact .inr (.inl h)
    · exact .inr (.inr ⟨u, formal, h⟩)
  | overloaded items =>
    obtain ⟨s, member, rfl⟩ := List.mem_map.mp part
    simp [Ty.mentioned, show ∃ a ∈ items, d ∈ a.mentioned b from ⟨s, member, h⟩]
  | typeVar v =>
    cases v
    rwa [List.mem_singleton.mp part] at h
  | any | void | noneType | unbound | error => cases part

section Substitution

variable {f : Substitution}

theorem isTypeObject_substituteSignature (s : Signature) :
    (Ty.substituteSignature f s).isTypeObject = s.isTypeObject := by
  cases s
  rfl

mutual

/-- A class is mentioned in the type or in what takes the place of a type variable. -/
theorem Ty.mentioned_substitute : (t : Ty) → d ∈ (t.substitute f).mentioned b →
    d ∈ t.mentioned b ∨ ∃ v u, f v = some u ∧ d ∈ u.mentioned b
  | .any, h | .void, h | .noneType, h | .unbound _, h | .error, h => .inl h
  | .inst c n args, h => by
    rw [Ty.substitute, Ty.mentioned, List.mem_cons] at h
    rw [Ty.mentioned, List.mem_cons]
    rcases h with same | inside
    · exact .inl (.inl same)
    · exact (mentionedByEach_substitute args inside).imp_left .inr
  | .callable s, h => Signature.mentioned_substitute s h
  | .overloaded items, h => by
    have constructs : (Ty.overloaded (Ty.substituteSignatures f items)).isTypeObject =
        (Ty.overloaded items).isTypeObject := by
      cases items with
      | nil => rfl
      | cons s ss => exact isTypeObject_substituteSignature s
    rw [Ty.substitute, Ty.mentioned, List.mem_append, constructs] at h
    rw [Ty.mentioned, List.mem_append]
    rcases h with own | inside
    · exact .inl (.inl own)
    · exact (mentionedBySignatures_substitute items inside).imp_left .inr
  | .tuple items, h => by
    rw [Ty.substitute, Ty.mentioned, List.mem_append] at h
    rw [Ty.mentioned, List.mem_append]
    rcases h with own | inside
    · exact .inl (.inl own)
    · exact (mentionedByEach_substitute items inside).imp_left .inr
  | .typeVar v, h => by
    rw [Ty.substitute] at h
    cases replaced : f v with
    | none =>
      rw [replaced] at h
      exact .inl h
    | some u =>
      rw [replaced] at h
      exact .inr ⟨v, u, replaced, h⟩

theorem mentionedByEach_substitute : (ts : List Ty) →
    d ∈ mentionedByEach b (Ty.substituteEach f ts) →
      d ∈ mentionedByEach b ts ∨ ∃ v u, f v = some u ∧ d ∈ u.mentioned b
  | [], h => .inl h
  | t :: ts, h => by
    rw [Ty.substituteEach, mentionedByEach, List.mem_append] at h
    rw [mentionedByEach, List.mem_append]
    rcases h with first | later
    · exact (Ty.mentioned_substitute t first).imp_left .inl
    · exact (mentionedByEach_substitute ts later).imp_left .inr

theorem Signature.mentioned_substitute : (s : Signature) →
    d ∈ (Ty.substituteSignature f s).mentioned b →
      d ∈ s.mentioned b ∨ ∃ v u, f v = some u ∧ d ∈ u.mentioned b
  | ⟨argTypes, _, _, ret, _, _, _, _⟩, h => by
    rw [Ty.substituteSignature, Signature.mentioned, List.mem_append, List.mem_append] at h
    rw [Signature.mentioned, List.mem_append, List.mem_append]
    rcases h with own | result | formal
    · exact .inl (.inl own)
    · exact (Ty.mentioned_substitute ret result).imp_left fun inside => .inr (.inl inside)
    · exact (mentionedByEach_substitute argTypes formal).imp_left fun inside => .inr (.inr inside)

theorem mentionedBySignatures_substitute : (ss : List Signature) →
    d ∈ mentionedBySignatures b (Ty.substituteSignatures f ss) →
      d ∈ mentionedBySignatures b ss ∨ ∃ v u, f v = some u ∧ d ∈ u.mentioned b
  | [], h => .inl h
  | s :: ss, h => by
    rw [Ty.substituteSignatures, mentionedBySignatures, List.mem_append] at h
    rw [mentionedBySignatures, List.mem_append]
    rcases h with first | later
    · exact (Signature.mentioned_substitute s first).imp_left .inl
    · exact (mentionedBySignatures_substitute ss later).imp_left .inr

end

theorem Signature.mentioned_erased {s : Signature} (h : d ∈ s.erased.mentioned b) :
    d ∈ s.mentioned b := by
  rcases s.mentioned_substitute h with inside | ⟨v, u, replaced, inside⟩
  · exact inside
  · cases replaced
    cases inside

theorem Ty.mentioned_expandBy {t : Ty} {args : List Ty} (h : d ∈ (t.expandBy args).mentioned b) :
    d ∈ t.mentioned b ∨ d ∈ mentionedByEach b args := by
  cases args with
  | nil => exact .inl h
  | cons a as =>
    refine (t.mentioned_substitute h).imp_right ?_
    rintro ⟨v, u, replaced, inside⟩
    have given := (Option.ite_none_right_eq_some.mp replaced).2
    exact mem_mentionedByEach.mpr ⟨u, List.mem_of_getElem? given, inside⟩

end Substitution
end Mentioned

/-! ### Heights -/

/-- Each class mentioned in a base of a class comes before that class. A tuple in a base mentions the
class of tuples, and a function that of functions. -/
def ClassTable.MentionsEarlier (t : ClassTable) (b : BasicClasses) : Prop :=
  ∀ c, ∀ base ∈ t.bases c, ∀ d ∈ base.toTy.mentioned b, d < c

instance (t : ClassTable) (b : BasicClasses) : Decidable (t.MentionsEarlier b) :=
  decidable_of_iff (∀ c < t.size, ∀ base ∈ t.bases c, ∀ d ∈ base.toTy.mentioned b, d < c)
    ClassTable.forall_bases_iff

section Heights

variable {height height' : ClassId → Nat} (b : BasicClasses)

mutual

/-- The nesting of a type depends on the heights of the classes that it mentions. -/
theorem Ty.depth_congr : (t : Ty) → (∀ d ∈ t.mentioned b, height d = height' d) →
    t.depth height = t.depth height'
  | .any, _ | .void, _ | .noneType, _ | .unbound _, _ | .error, _ => rfl
  | .inst c n args, h => by
    rw [Ty.mentioned, List.forall_mem_cons] at h
    rw [Ty.depth, Ty.depth, h.1, depthEach_congr args h.2]
  | .callable s, h => congrArg (1 + ·) (Signature.depth_congr s h)
  | .overloaded items, h =>
    congrArg (2 + ·) (depthSignatures_congr items fun d inside => h d (List.mem_append_right _ inside))
  | .tuple items, h =>
    congrArg (1 + ·) (depthEach_congr items fun d inside => h d (List.mem_append_right _ inside))
  | .typeVar ⟨_, _, _, upperBound⟩, h => congrArg (1 + ·) (Ty.depth_congr upperBound h)

theorem Signature.depth_congr : (s : Signature) → (∀ d ∈ s.mentioned b, height d = height' d) →
    s.depth height = s.depth height'
  | ⟨argTypes, _, _, ret, _, _, _, _⟩, h => by
    rw [Signature.mentioned, List.forall_mem_append, List.forall_mem_append] at h
    rw [Signature.depth, Signature.depth, Ty.depth_congr ret h.2.1, depthEach_congr argTypes h.2.2]

theorem depthEach_congr : (ts : List Ty) → (∀ d ∈ mentionedByEach b ts, height d = height' d) →
    depthEach height ts = depthEach height' ts
  | [], _ => rfl
  | t :: ts, h => by
    rw [mentionedByEach, List.forall_mem_append] at h
    rw [depthEach, depthEach, Ty.depth_congr t h.1, depthEach_congr ts h.2]

theorem depthSignatures_congr : (ss : List Signature) →
    (∀ d ∈ mentionedBySignatures b ss, height d = height' d) →
      depthSignatures height ss = depthSignatures height' ss
  | [], _ => rfl
  | s :: ss, h => by
    rw [mentionedBySignatures, List.forall_mem_append] at h
    rw [depthSignatures, depthSignatures, Signature.depth_congr s h.1, depthSignatures_congr ss h.2]

end

theorem le_heightOver (height : ClassId → Nat) {bases : List Instance} {base : Instance} (h : base ∈ bases) :
    height base.cls + depthEach height base.args ≤ heightOver height bases := by
  have start (xs : List Nat) (m : Nat) : m ≤ xs.foldl max m ∧ ∀ x ∈ xs, x ≤ xs.foldl max m := by
    induction xs generalizing m with
    | nil => simp
    | cons x xs ih =>
      obtain ⟨low, each⟩ := ih (max m x)
      rw [List.foldl_cons, List.forall_mem_cons]
      exact ⟨Nat.le_trans (Nat.le_max_left m x) low, Nat.le_trans (Nat.le_max_right m x) low, each⟩
  exact (start _ 0).2 _ (List.mem_map_of_mem h)

end Heights

namespace ClassTable

/-- One class more, with its height. -/
def addHeight (heights : Array Nat) (i : ClassInfo) : Array Nat :=
  heights.push (heightOver (heights.getD · 0) i.bases)

theorem size_addHeight {heights : Array Nat} {i : ClassInfo} :
    (addHeight heights i).size = heights.size + 1 := by
  rw [addHeight, Array.size_push]

theorem getD_addHeight_self {heights : Array Nat} {i : ClassInfo} :
    (addHeight heights i).getD heights.size 0 = heightOver (heights.getD · 0) i.bases := by
  simp [addHeight, Array.getD_eq_getD_getElem?]

theorem getD_addHeight_of_lt {heights : Array Nat} {i : ClassInfo} {c : Nat}
    (known : c < heights.size) : (addHeight heights i).getD c 0 = heights.getD c 0 := by
  simp [addHeight, Array.getD_eq_getD_getElem?, Array.getElem?_push, Nat.ne_of_lt known]

theorem size_foldl_addHeight (heights : Array Nat) (infos : List ClassInfo) :
    (infos.foldl addHeight heights).size = heights.size + infos.length := by
  induction infos generalizing heights with
  | nil => rfl
  | cons i infos ih =>
    rw [List.foldl_cons, ih, size_addHeight, List.length_cons]
    omega

/-- The heights that are there stay. -/
theorem getD_foldl_addHeight {heights : Array Nat} (infos : List ClassInfo) {c : Nat}
    (known : c < heights.size) : (infos.foldl addHeight heights).getD c 0 = heights.getD c 0 := by
  induction infos generalizing heights with
  | nil => rfl
  | cons i infos ih =>
    have later : c < (addHeight heights i).size := by
      rw [size_addHeight]
      omega
    rw [List.foldl_cons, ih later, getD_addHeight_of_lt known]

theorem heights_eq (t : ClassTable) : t.heights = t.classes.toList.foldl addHeight #[] :=
  (Array.foldl_toList _).symm

variable {t : ClassTable} {c : Nat}

/-- A class is as high as the heights of the classes before it tell. -/
theorem exists_heights (known : c < t.size) :
    ∃ heights : Array Nat, t.heights.getD c 0 = heightOver (heights.getD · 0) (t.bases c) ∧
      ∀ d < c, heights.getD d 0 = t.heights.getD d 0 := by
  have within : c < t.classes.toList.length := by simpa [size] using known
  let before := (t.classes.toList.take c).foldl addHeight #[]
  have length : before.size = c := by
    simp only [before, size_foldl_addHeight, List.length_take, List.size_toArray, List.length_nil]
    omega
  have own : t.classes.toList[c] = t.info c := by
    simp only [Array.length_toList] at within
    simp [info, Array.getD, within]
  have whole : t.heights =
      (t.classes.toList.drop (c + 1)).foldl addHeight (addHeight before (t.info c)) := by
    rw [heights_eq, ← List.foldl_cons (f := addHeight), ← own, ← List.drop_eq_getElem_cons within,
      ← List.foldl_append, List.take_append_drop]
  have stays {d : Nat} (early : d ≤ c) :
      t.heights.getD d 0 = (addHeight before (t.info c)).getD d 0 := by
    rw [whole, getD_foldl_addHeight]
    rw [size_addHeight, length]
    omega
  refine ⟨before, ?_, fun d earlier => ?_⟩
  · rw [stays (Nat.le_refl c)]
    have last : (addHeight before (t.info c)).getD before.size 0 = _ := getD_addHeight_self
    rwa [length] at last
  · rw [stays (Nat.le_of_lt earlier), getD_addHeight_of_lt (length ▸ earlier)]

/-- The bases of a class that mention only classes before it are no higher than the class. -/
theorem height_base_le {b : BasicClasses} {base : Instance} (member : base ∈ t.bases c)
    (earlier : ∀ d ∈ base.toTy.mentioned b, d < c) :
    t.heights.getD base.cls 0 + depthEach (t.heights.getD · 0) base.args ≤ t.heights.getD c 0 := by
  obtain ⟨heights, height, same⟩ := exists_heights (lt_size_of_mem_bases member)
  have lower := le_heightOver (heights.getD · 0) member
  have own : base.cls < c := earlier _ List.mem_cons_self
  have args : depthEach (heights.getD · 0) base.args = depthEach (t.heights.getD · 0) base.args :=
    depthEach_congr b base.args fun d inside => same d (earlier d (List.mem_cons_of_mem _ inside))
  rw [height]
  rw [same _ own, args] at lower
  exact lower

end ClassTable

/-! ### A weight of types -/

/-- The first id above all of these. -/
def above (ds : List ClassId) : Nat := ds.foldr (fun d n => max (d + 1) n) 0

theorem above_le_iff {ds : List ClassId} {n : Nat} : above ds ≤ n ↔ ∀ d ∈ ds, d < n := by
  induction ds with
  | nil => simp [above]
  | cons d ds ih =>
    rw [above, List.foldr_cons, Nat.max_le, List.forall_mem_cons, ← ih]
    rfl

theorem lt_above {ds : List ClassId} {d : ClassId} (h : d ∈ ds) : d < above ds :=
  above_le_iff.mp (Nat.le_refl _) d h

theorem above_mono {ds es : List ClassId} (h : ∀ d ∈ ds, d ∈ es) : above ds ≤ above es :=
  above_le_iff.mpr fun d member => lt_above (h d member)

/-- An id from which on no class takes part in comparisons of a type. The class of an instance only
leads to its bases. -/
def Ty.reach (b : BasicClasses) : Ty → Nat
  | .inst c _ args => max c (above (mentionedByEach b args))
  | t => above (t.mentioned b)

section

variable {b : BasicClasses}

theorem Ty.reach_le_above (t : Ty) : t.reach b ≤ above (t.mentioned b) := by
  cases t with
  | inst c n args =>
    rw [Ty.reach, Ty.mentioned, Nat.max_le]
    exact ⟨Nat.le_of_lt (lt_above List.mem_cons_self),
      above_mono fun d inside => List.mem_cons_of_mem _ inside⟩
  | any | void | noneType | callable | overloaded | tuple | typeVar | unbound | error =>
    exact Nat.le_refl _

theorem Ty.reach_of_part {t u : Ty} (part : u ∈ t.parts) : u.reach b ≤ t.reach b := by
  refine Nat.le_trans u.reach_le_above ?_
  cases t with
  | inst c n args =>
    refine Nat.le_trans (above_mono fun d inside => ?_) (Nat.le_max_right _ _)
    exact mem_mentionedByEach.mpr ⟨u, part, inside⟩
  | any | void | noneType | callable | overloaded | tuple | typeVar | unbound | error =>
    exact above_mono fun d inside => Ty.mentioned_of_part part inside

end

namespace TypeOrder

variable {o : TypeOrder}

/-- How many of the classes that types fall back to come before an id. -/
def fallbacksBelow (o : TypeOrder) (n : Nat) : Nat :=
  o.fallbackClasses.countP fun k => k.any (· < n)

theorem fallbacksBelow_le (n : Nat) : o.fallbacksBelow n ≤ 3 := List.countP_le_length

theorem fallbacksBelow_mono {m n : Nat} (h : m ≤ n) : o.fallbacksBelow m ≤ o.fallbacksBelow n := by
  refine List.countP_mono_left fun k _ below => ?_
  cases k with
  | none => exact below
  | some k =>
    simp only [Option.any_some, decide_eq_true_eq] at below ⊢
    exact Nat.lt_of_lt_of_le below h

theorem fallbacksBelow_lt {k n : Nat} (h : some k ∈ o.fallbackClasses) (below : k < n) :
    o.fallbacksBelow k < o.fallbacksBelow n := by
  have each (c : Option ClassId) :
      (if c.any (· < k) = true then 1 else 0) + (if c = some k then 1 else 0) ≤
        (if c.any (· < n) = true then 1 else 0 : Nat) := by
    cases c with
    | none => simp
    | some c =>
      by_cases same : c = k
      · simp [same, below]
      · by_cases less : c < k
        · have lower : c < n := Nat.lt_trans less below
          simp [same, less, lower]
        · simp [same, less]
  have tuple := each o.basic.tuple
  have type := each o.basic.type
  have function := each o.basic.function
  simp only [fallbackClasses, List.mem_cons, List.not_mem_nil, or_false] at h
  simp only [fallbacksBelow, fallbackClasses, List.countP_cons, List.countP_nil]
  rcases h with h | h | h <;> simp only [← h, if_true] at tuple type function ⊢ <;> omega

/-- The nesting of a type and what it can gain where the type falls back to a class. -/
def weight (o : TypeOrder) (t : Ty) : Nat :=
  t.depth o.height + o.fallbackHeight * o.fallbacksBelow (t.reach o.basic)

theorem weight_le (o : TypeOrder) (t : Ty) : o.weight t ≤ t.depth o.height + 3 * o.fallbackHeight := by
  have few := fallbacksBelow_le (o := o) (t.reach o.basic)
  have product := Nat.mul_le_mul_left o.fallbackHeight few
  unfold weight
  omega

theorem weight_mono {s t : Ty} (depth : s.depth o.height ≤ t.depth o.height)
    (reach : s.reach o.basic ≤ t.reach o.basic) : o.weight s ≤ o.weight t :=
  Nat.add_le_add depth (Nat.mul_le_mul_left _ (fallbacksBelow_mono reach))

/-- A type that falls back to a class mentions it. -/
theorem lt_reach_of_fallback? {t : Ty} {i : Instance} (h : o.fallback? t = some i) :
    i.cls < t.reach o.basic := by
  have own {c : Option ClassId} (made : o.instance? c = some i) : c = some i.cls := by
    obtain ⟨k, rfl, rfl⟩ := Option.map_eq_some_iff.mp made
    rfl
  have choice {constructs : Bool} (h : (if constructs then o.instance? o.basic.type
      else o.instance? o.basic.function) = some i) :
      o.basic.ofCallable constructs = some i.cls := by
    cases constructs <;> exact own h
  cases t with
  | tuple items => exact lt_above (List.mem_append_left _ (Option.mem_toList.mpr (own h)))
  | callable s => exact lt_above (Signature.mem_mentioned.mpr (.inl (choice h)))
  | overloaded items => exact lt_above (List.mem_append_left _ (Option.mem_toList.mpr (choice h)))
  | any | void | noneType | inst | typeVar | unbound | error => cases h

/-- To be seen as an instance of another class leads to no class that comes later. -/
theorem reach_view?_le (earlier : o.classes.MentionsEarlier o.basic) {i j : Instance} {c : ClassId}
    (h : o.classes.view? i c = some j) : j.toTy.reach o.basic ≤ i.toTy.reach o.basic := by
  refine ClassTable.viewWithin_induction
    (fun k => k.toTy.reach o.basic ≤ i.toTy.reach o.basic) ?_ h (Nat.le_refl _)
  intro k low base member
  have before := earlier k.cls base member
  refine Nat.le_trans (Nat.max_le.mpr ⟨?_, above_le_iff.mpr fun d inside => ?_⟩) low
  · exact Nat.le_trans (Nat.le_of_lt (before _ List.mem_cons_self)) (Nat.le_max_left _ _)
  · obtain ⟨_, made, inside⟩ := mem_mentionedByEach.mp inside
    obtain ⟨arg, listed, rfl⟩ := List.mem_map.mp made
    rcases Ty.mentioned_expandBy inside with written | given
    · have own := before d (Ty.mentioned_of_part (t := base.toTy) listed written)
      exact Nat.lt_of_lt_of_le own (Nat.le_max_left _ _)
    · exact Nat.lt_of_lt_of_le (lt_above given) (Nat.le_max_right _ _)

theorem weighs_of_mentionsEarlier {t : ClassTable} (earlier : t.MentionsEarlier t.basic) :
    (ofClasses t).Weighs (ofClasses t).weight where
  part u v member := by
    have depth := Ty.depth_lt_of_mem_parts (ofClasses t).height member
    have count := fallbacksBelow_mono (o := ofClasses t) (Ty.reach_of_part (b := t.basic) member)
    exact Nat.add_lt_add_of_lt_of_le depth (Nat.mul_le_mul_left _ count)
  erased s := by
    refine weight_mono ?_ (above_mono fun d inside => Signature.mentioned_erased inside)
    have lower := s.depth_erased_le (ofClasses t).height
    rw [Ty.depth, Ty.depth]
    omega
  view i c j seen := by
    have cover : (ofClasses t).HeightsCover := fun c base member =>
      ClassTable.height_base_le member (earlier c base member)
    exact weight_mono (cover.depth_view?_le seen) (reach_view?_le earlier seen)
  fallback u i fallen := by
    have inside := lt_reach_of_fallback? fallen
    obtain ⟨k, rfl, listed⟩ := exists_of_fallback? fallen
    have low := height_le_fallbackHeight listed
    have deep := u.depth_pos (ofClasses t).height
    have fewer := fallbacksBelow_lt listed inside
    have product := Nat.mul_le_mul_left (ofClasses t).fallbackHeight fewer
    have own : Ty.reach (ofClasses t).basic ((ofClasses t).classes.instanceOf k []).toTy = k :=
      Nat.max_eq_left (Nat.zero_le k)
    rw [weight, depth_instanceOf, own, weight]
    rw [Nat.mul_succ] at product
    omega
  pos u := Nat.le_trans (u.depth_pos _) (Nat.le_add_right _ _)

/-- Two types weigh no more than the steps that are given to compare them. -/
theorem weight_le_budget (o : TypeOrder) (l r : Ty) : o.weight l + o.weight r ≤ o.budget l r := by
  have left := o.weight_le l
  have right := o.weight_le r
  unfold budget maxFallbacks
  omega

theorem join?_isSome {t : ClassTable} (earlier : t.MentionsEarlier t.basic) (l r : Ty) :
    ((ofClasses t).join? l r).isSome = true :=
  (weighs_of_mentionsEarlier earlier).joinWithin_isSome
    (Nat.lt_succ_of_le ((ofClasses t).weight_le_budget l r))

end TypeOrder

/-- A function of one argument. -/
def Ty.function (arg : Ty) : Ty := .callable (.positional [arg] .any)

/-- A class of boxes, functions that are boxes of numbers, and tuples that are boxes of functions. -/
def ClassTable.boxes : ClassTable :=
  let box (content : Ty) : Instance := ⟨1, "Box", [content]⟩
  let number : Ty := .inst 2 "Number" []
  ⟨#[⟨"object", "builtins.object", [], [0], ∅, [], false⟩,
    ⟨"Box", "Box", [⟨0, "builtins.object", []⟩], [1, 0], ∅, ["T"], false⟩,
    ⟨"Number", "Number", [⟨0, "builtins.object", []⟩], [2, 0], ∅, [], false⟩,
    ⟨"function", "builtins.function", [box number], [3, 1, 0], ∅, [], false⟩,
    ⟨"tuple", "builtins.tuple", [box (.function (box (.inst 3 "builtins.function" [])).toTy)],
      [4, 1, 0], ∅, [], false⟩]⟩

/-- A class of boxes, and tuples that are boxes of functions on boxes of functions on tuples: a class
whose base mentions the class itself, if only as what a tuple counts as. -/
def ClassTable.circular : ClassTable :=
  ⟨#[⟨"object", "builtins.object", [], [0], ∅, [], false⟩,
    ⟨"Box", "builtins.Box", [], [1], ∅, ["T"], false⟩,
    ⟨"tuple", "builtins.tuple",
      [⟨1, "builtins.Box", [.function (.inst 1 "builtins.Box" [.function (.tuple [])])]⟩], [2, 1], ∅, [],
      false⟩]⟩

theorem fallback?_circular : (TypeOrder.ofClasses .circular).fallback? (.tuple []) =
    some ⟨2, "builtins.tuple", []⟩ := by
  have tuple : ClassTable.circular.basic.tuple = some 2 := by decide +kernel
  rw [TypeOrder.fallback?, TypeOrder.instance?, TypeOrder.ofClasses, tuple]
  rfl

theorem view?_circular : (TypeOrder.ofClasses .circular).classes.view? ⟨2, "builtins.tuple", []⟩ 1 =
    some ⟨1, "builtins.Box", [.function (.inst 1 "builtins.Box" [.function (.tuple [])])]⟩ := rfl

/-- Functions are compared by their arguments, the other way round. -/
theorem TypeOrder.subtypeWithin_function_eq_none {o : TypeOrder} {steps : Nat} {a b : Ty}
    (h : o.subtypeWithin steps b a = none) :
    o.subtypeWithin (steps + 1) (.function a) (.function b) = none := by
  have asked : o.subtypeWithin (steps + 1) (.function a) (.function b) =
      plainSignatureLe (o.subtypeWithin steps) (.positional [a] .any) (.positional [b] .any) := rfl
  have unanswered : [(b, some a)].allM (takenLe (o.subtypeWithin steps)) = none := by
    simp [takenLe, h]
  cases steps with
  | zero => rfl
  | succ steps =>
    have result : o.subtypeWithin (steps + 1) (Signature.positional [a] .any).ret
        (Signature.positional [b] .any).ret = some true := subtypeWithin_any
    rw [asked, plainSignatureLe_eq, result]
    exact unanswered

/-- It does not do to count instances alone as mentions: those in the bases of these classes are of
classes that come before, but no number of steps suffices to compare the empty tuple with a box of
functions on tuples. -/
theorem circular_comparison_endless :
    ClassTable.circular.MentionsEarlier ⟨none, none, none, none⟩ ∧
    ∀ steps, (TypeOrder.ofClasses .circular).subtypeWithin steps (.tuple [])
      (.inst 1 "builtins.Box" [.function (.tuple [])]) = none := by
  refine ⟨by decide +kernel, fun steps => ?_⟩
  induction steps using Nat.strongRecOn with
  | ind steps ih =>
    match steps with
    | 0 => rfl
    | steps + 1 =>
      have back : (TypeOrder.ofClasses .circular).subtypeWithin steps
          (.function (.inst 1 "builtins.Box" [.function (.tuple [])])) (.function (.tuple [])) =
            none := by
        match steps with
        | 0 => rfl
        | steps + 1 => exact TypeOrder.subtypeWithin_function_eq_none (ih steps (by omega))
      have asked : (TypeOrder.ofClasses .circular).question (.tuple [])
          (.inst 1 "builtins.Box" [.function (.tuple [])]) =
            .instances ((TypeOrder.ofClasses .circular).fallback? (.tuple []))
              ⟨1, "builtins.Box", [.function (.tuple [])]⟩ := rfl
      rw [TypeOrder.subtypeWithin_succ, asked, fallback?_circular]
      simp only [TypeOrder.Question.answer, TypeOrder.instanceLe, view?_circular, TypeOrder.argsLe]
      simp [back]

end Gradual
