import Gradual.Proofs.Inheritance
import Gradual.Proofs.KeywordCalls
import Mathlib.Data.List.Induction

/-!
Where all arguments of a call go, collections of arguments among them. Each argument goes to some
formals, none of them twice, and is put behind the arguments that they have already. Only for a
collection it matters what they have; any other argument goes to one formal at most, which the kinds of
the arguments before it decide. What goes to no formal is reported.
-/

namespace Gradual

namespace ArgBinding

variable {s : Signature} {shapes : List ArgShape} {shape : ArgShape} {bound : Bound} {cursor i k : Nat}

/-- The formal at position `k` gets the argument at position `i`. -/
def Gets (bound : Bound) (k i : Nat) : Prop := ∃ actuals, bound[k]? = some actuals ∧ i ∈ actuals

theorem gets_iff_contains : (∃ k, Gets bound k i) ↔ bound.any (·.contains i) = true := by
  rw [List.any_eq_true]
  constructor
  · rintro ⟨k, actuals, found, member⟩
    exact ⟨actuals, List.mem_of_getElem? found, List.contains_iff_mem.mpr member⟩
  · rintro ⟨actuals, listed, member⟩
    obtain ⟨k, found⟩ := List.mem_iff_getElem?.mp listed
    exact ⟨k, actuals, found, List.contains_iff_mem.mp member⟩

/-! ### One argument -/

/-- The formals that an argument goes to, where positional arguments have filled those before the
cursor. -/
def goesTo (s : Signature) (cursor : Nat) (bound : Bound) (shape : ArgShape) : List Nat :=
  match shape.kind with
  | .pos | .opt | .named => (formal? s cursor shape).toList
  | .star =>
    List.range' cursor (s.leading - cursor) ++
      if s.argKinds[s.leading]? = some .star then [s.leading] else []
  | .star2 => openFormals s cursor bound

/-- The cursor behind an argument. -/
def advance (s : Signature) (cursor : Nat) : ArgKind → Nat
  | .pos | .opt => min (cursor + 1) s.leading
  | .star => s.leading
  | .named | .star2 => cursor

theorem advance_le (within : cursor ≤ s.leading) (kind : ArgKind) :
    advance s cursor kind ≤ s.leading := by
  cases kind with
  | pos | opt => exact Nat.min_le_right _ _
  | star => exact Nat.le_refl _
  | named | star2 => exact within

theorem goesTo_single (single : shape.kind.isStar = false) :
    goesTo s cursor bound shape = (formal? s cursor shape).toList := by
  unfold goesTo
  cases kind : shape.kind with
  | star | star2 =>
    rw [kind] at single
    cases single
  | pos | opt | named => rfl

theorem length_takeWhile_drop {kinds : List ArgKind}
    (within : cursor ≤ kinds.findIdx fun kind => !kind.isFixed) :
    ((kinds.drop cursor).takeWhile ArgKind.isFixed).length =
      (kinds.findIdx fun kind => !kind.isFixed) - cursor := by
  induction kinds generalizing cursor with
  | nil => simp
  | cons kind kinds ih =>
    rw [List.findIdx_cons] at within ⊢
    cases fixed : kind.isFixed with
    | false =>
      rw [fixed] at within
      obtain rfl : cursor = 0 := Nat.le_zero.mp within
      simp [fixed]
    | true =>
      rw [fixed] at within
      cases cursor with
      | zero =>
        have rest := ih (Nat.zero_le _)
        simpa [fixed] using rest
      | succ cursor =>
        have rest := ih (Nat.le_of_succ_le_succ within)
        simpa [fixed] using rest

/-- An argument goes to its formals, and the cursor moves on. -/
theorem step_eq_giveAll (within : cursor ≤ s.leading) :
    step s i shape cursor bound =
      (advance s cursor shape.kind, giveAll i (goesTo s cursor bound shape) bound) := by
  have single (one : shape.kind.isStar = false) : step s i shape cursor bound =
      (min (if shape.kind.isFixed then cursor + 1 else cursor) s.leading,
        giveAll i (goesTo s cursor bound shape) bound) := by
    have moved : step s i shape (min cursor s.leading) bound = _ := step_eq one
    rw [Nat.min_eq_left within] at moved
    rw [moved, goesTo_single one]
    cases formal? s cursor shape <;> rfl
  cases kind : shape.kind with
  | pos | opt =>
    rw [single (by rw [kind]; rfl), kind]
    rfl
  | named =>
    rw [single (by rw [kind]; rfl), kind]
    exact congrArg (·, _) (Nat.min_eq_left within)
  | star =>
    have run : ((s.argKinds.drop cursor).takeWhile ArgKind.isFixed).length = s.leading - cursor :=
      length_takeWhile_drop within
    rw [step, goesTo, kind]
    dsimp only
    rw [run, Nat.add_sub_cancel' within, advance, giveAll, giveAll, List.foldl_append]
    split <;> rfl
  | star2 =>
    rw [step, goesTo, kind]
    rfl

theorem lt_of_formal? (goes : formal? s cursor shape = some k) : k < s.argKinds.length := by
  rw [formal?] at goes
  split at goes
  · rw [Signature.leadingFormal?] at goes
    split at goes
    · cases goes
      exact Nat.lt_of_lt_of_le ‹_› List.findIdx_le_length
    · obtain ⟨star, same⟩ := Option.ite_none_right_eq_some.mp goes
      cases same
      exact (List.getElem?_eq_some_iff.mp star).1
  · rcases Option.or_eq_some_iff.mp goes with named | ⟨-, collected⟩
    · obtain ⟨_, -, named⟩ := Option.bind_eq_some_iff.mp named
      have inside := (List.findIdx?_eq_some_iff_findIdx_eq.mp named).1
      rw [List.length_zip] at inside
      omega
    · exact (List.findIdx?_eq_some_iff_findIdx_eq.mp collected).1

theorem lt_of_mem_goesTo (member : k ∈ goesTo s cursor bound shape) : k < s.argKinds.length := by
  unfold goesTo at member
  split at member
  · exact lt_of_formal? (Option.mem_toList.mp member)
  · exact lt_of_formal? (Option.mem_toList.mp member)
  · exact lt_of_formal? (Option.mem_toList.mp member)
  · rcases List.mem_append.mp member with fixed | rest
    · obtain ⟨late, early⟩ := List.mem_range'_1.mp fixed
      have inside : k < s.leading := by omega
      exact Nat.lt_of_lt_of_le inside List.findIdx_le_length
    · split at rest
      · rename_i star
        rw [List.mem_singleton.mp rest]
        exact (List.getElem?_eq_some_iff.mp star).1
      · cases rest
  · exact List.mem_range.mp (List.mem_filter.mp member).1

theorem nodup_goesTo (within : cursor ≤ s.leading) : (goesTo s cursor bound shape).Nodup := by
  have single : (formal? s cursor shape).toList.Nodup := by
    cases formal? s cursor shape <;> simp
  unfold goesTo
  split
  · exact single
  · exact single
  · exact single
  · refine List.nodup_append.mpr ⟨List.nodup_range', by split <;> simp, fun k fixed l rest => ?_⟩
    have early := (List.mem_range'_1.mp fixed).2
    split at rest
    · rw [List.mem_singleton.mp rest]
      omega
    · cases rest
  · exact List.nodup_range.filter _

theorem giveAll_cons (first : Nat) (rest : List Nat) :
    giveAll i (first :: rest) bound = giveAll i rest (give i first bound) := rfl

/-- Each of the formals gets the argument behind those that it has. -/
theorem getElem?_giveAll {ks : List Nat} (distinct : ks.Nodup) :
    (giveAll i ks bound)[k]? =
      bound[k]?.map fun actuals => if k ∈ ks then actuals ++ [i] else actuals := by
  induction ks generalizing bound with
  | nil => simp [giveAll]
  | cons first rest ih =>
    obtain ⟨other, later⟩ := List.nodup_cons.mp distinct
    rw [giveAll_cons, ih later, give, List.getElem?_modify, Option.map_eq_map, Option.map_map]
    refine congrArg (Option.map · bound[k]?) (funext fun actuals => ?_)
    by_cases same : first = k
    · subst same
      simp [other]
    · have apart : k ≠ first := fun h => same h.symm
      simp [same, apart]

theorem length_giveAll {ks : List Nat} : (giveAll i ks bound).length = bound.length := by
  induction ks generalizing bound with
  | nil => rfl
  | cons first rest ih =>
    rw [giveAll_cons, ih, give, List.length_modify]

/-! ### All arguments -/

/-- The cursor behind some arguments. -/
def cursorAfter (s : Signature) (shapes : List ArgShape) : Nat :=
  shapes.foldl (fun cursor shape => advance s cursor shape.kind) 0

theorem cursorAfter_concat :
    cursorAfter s (shapes ++ [shape]) = advance s (cursorAfter s shapes) shape.kind := by
  rw [cursorAfter, List.foldl_append]
  rfl

theorem cursorAfter_le : cursorAfter s shapes ≤ s.leading := by
  induction shapes using List.reverseRecOn with
  | nil => exact Nat.zero_le _
  | append_singleton shapes shape ih =>
    rw [cursorAfter_concat]
    exact advance_le ih _

/-- The cursor stands behind the leading formals that positional arguments have filled, and behind all
of them once a collection of arguments has gone to the rest. -/
theorem cursorAfter_eq : cursorAfter s shapes =
    if shapes.any (·.kind == .star) then s.leading else min (positionals shapes) s.leading := by
  induction shapes using List.reverseRecOn with
  | nil => exact (Nat.zero_min s.leading).symm
  | append_singleton shapes shape ih =>
    have counted : positionals (shapes ++ [shape]) =
        positionals shapes + if shape.kind.isFixed then 1 else 0 := by
      rw [positionals, positionals, List.countP_append, List.countP_singleton]
    rw [cursorAfter_concat, ih, List.any_append, counted]
    cases shapes.any (·.kind == .star) <;> cases kind : shape.kind <;>
      simp [advance, ArgKind.isFixed, kind] <;> omega

theorem run_concat (within : cursor ≤ s.leading) :
    run s i cursor bound (shapes ++ [shape]) =
      let before := run s i cursor bound shapes
      let reached := shapes.foldl (fun cursor shape => advance s cursor shape.kind) cursor
      giveAll (i + shapes.length) (goesTo s reached before shape) before := by
  induction shapes generalizing i cursor bound with
  | nil =>
    rw [List.nil_append, run.eq_def]
    dsimp only
    rw [step_eq_giveAll within]
    rfl
  | cons first rest ih =>
    have later : run s (i + 1) (advance s cursor first.kind)
        (giveAll i (goesTo s cursor bound first) bound) (rest ++ [shape]) = _ :=
      ih (advance_le within first.kind)
    rw [List.cons_append, run, step_eq_giveAll within, run, step_eq_giveAll within]
    dsimp only at later ⊢
    rw [later, List.length_cons, List.foldl_cons, Nat.add_right_comm, Nat.add_assoc]

theorem bind_concat : bind s (shapes ++ [shape]) =
    giveAll shapes.length (goesTo s (cursorAfter s shapes) (bind s shapes) shape) (bind s shapes) := by
  have last : run s 0 0 (s.argKinds.map fun _ => []) (shapes ++ [shape]) = _ :=
    run_concat (Nat.zero_le s.leading)
  rw [Nat.zero_add] at last
  exact last

theorem length_formals_bind : (bind s shapes).length = s.argKinds.length := by
  induction shapes using List.reverseRecOn with
  | nil => exact List.length_map _
  | append_singleton shapes shape ih => rw [bind_concat, length_giveAll, ih]

theorem gets_bind_concat : Gets (bind s (shapes ++ [shape])) k i ↔
    Gets (bind s shapes) k i ∨
      i = shapes.length ∧ k ∈ goesTo s (cursorAfter s shapes) (bind s shapes) shape := by
  rw [Gets, bind_concat, getElem?_giveAll (nodup_goesTo cursorAfter_le)]
  constructor
  · rintro ⟨_, found, member⟩
    obtain ⟨actuals, before, rfl⟩ := Option.map_eq_some_iff.mp found
    split at member
    · rcases List.mem_append.mp member with old | new
      · exact .inl ⟨actuals, before, old⟩
      · exact .inr ⟨List.mem_singleton.mp new, ‹_›⟩
    · exact .inl ⟨actuals, before, member⟩
  · rintro (⟨actuals, before, old⟩ | ⟨rfl, target⟩)
    · refine ⟨_, congrArg (Option.map _) before, ?_⟩
      split
      · exact List.mem_append_left _ old
      · exact old
    · have inside : k < (bind s shapes).length := length_formals_bind ▸ lt_of_mem_goesTo target
      refine ⟨_, congrArg (Option.map _) (List.getElem?_eq_getElem inside), ?_⟩
      dsimp only
      rw [if_pos target]
      exact List.mem_append_right _ (List.mem_singleton.mpr rfl)

theorem lt_of_gets (gets : Gets (bind s shapes) k i) : k < s.argKinds.length ∧ i < shapes.length := by
  refine ⟨?_, ?_⟩
  · obtain ⟨_, found, -⟩ := gets
    have inside : k < (bind s shapes).length := (List.getElem?_eq_some_iff.mp found).1
    rwa [length_formals_bind] at inside
  · induction shapes using List.reverseRecOn with
    | nil =>
      obtain ⟨actuals, found, member⟩ := gets
      have empty : (s.argKinds.map fun _ => ([] : List Nat))[k]? = some actuals := found
      rw [List.getElem?_map] at empty
      obtain ⟨_, -, rfl⟩ := Option.map_eq_some_iff.mp empty
      cases member
    | append_singleton shapes shape ih =>
      rw [List.length_append, List.length_singleton]
      rcases gets_bind_concat.mp gets with before | ⟨rfl, -⟩
      · exact Nat.lt_succ_of_lt (ih before)
      · exact Nat.lt_succ_self _

/-- A formal gets its arguments in order. -/
theorem ascending_bind {actuals : List Nat} (listed : actuals ∈ bind s shapes) :
    actuals.Pairwise (· < ·) := by
  induction shapes using List.reverseRecOn generalizing actuals with
  | nil =>
    obtain ⟨_, -, rfl⟩ := List.mem_map.mp listed
    exact .nil
  | append_singleton shapes shape ih =>
    obtain ⟨k, found⟩ := List.mem_iff_getElem?.mp listed
    rw [bind_concat, getElem?_giveAll (nodup_goesTo cursorAfter_le)] at found
    obtain ⟨before, old, rfl⟩ := Option.map_eq_some_iff.mp found
    have ordered := ih (List.mem_of_getElem? old)
    split
    · refine List.pairwise_append.mpr ⟨ordered, List.pairwise_singleton _ _, fun i member j last => ?_⟩
      rw [List.mem_singleton.mp last]
      exact (lt_of_gets ⟨before, old, member⟩).2
    · exact ordered

/-- An argument that is no collection goes to the formal that the arguments before it leave to it. -/
theorem gets_bind_iff (given : shapes[i]? = some shape) (single : shape.kind.isStar = false) :
    Gets (bind s shapes) k i ↔ formal? s (cursorAfter s (shapes.take i)) shape = some k := by
  induction shapes using List.reverseRecOn with
  | nil => cases given
  | append_singleton shapes last ih =>
    rw [gets_bind_concat]
    rcases Nat.lt_trichotomy i shapes.length with early | rfl | late
    · rw [List.getElem?_append_left early] at given
      rw [ih given, List.take_append_of_le_length (Nat.le_of_lt early), or_iff_left]
      exact fun own => absurd own.1 (Nat.ne_of_lt early)
    · obtain rfl : last = shape := by simpa using given
      rw [List.take_left, goesTo_single single, Option.mem_toList]
      constructor
      · rintro (before | ⟨-, goes⟩)
        · exact absurd (lt_of_gets before).2 (Nat.lt_irrefl _)
        · exact goes
      · exact fun goes => .inr ⟨rfl, goes⟩
    · rw [List.getElem?_eq_none (by rw [List.length_append, List.length_singleton]; omega)] at given
      cases given

/-- What goes where in a call: each formal has its arguments in order, all of them arguments of the
call. An argument that is no collection goes to one formal at most. A positional one goes to the leading
formal at its place, or to the one that collects the rest; behind a collection of arguments only that
is left. -/
structure Maps (s : Signature) (shapes : List ArgShape) (bound : Bound) : Prop where
  length : bound.length = s.argKinds.length
  ascending : ∀ actuals ∈ bound, actuals.Pairwise (· < ·)
  valid : ∀ actuals ∈ bound, ∀ i ∈ actuals, i < shapes.length
  once : ∀ (i : Nat) shape, shapes[i]? = some shape → shape.kind.isStar = false →
    ∀ k l, Gets bound k i → Gets bound l i → k = l
  positional : ∀ (i : Nat) shape, shapes[i]? = some shape → shape.kind.isFixed = true →
    (shapes.take i).any (·.kind == .star) = false →
    ∀ k, Gets bound k i ↔ s.leadingFormal? (positionals (shapes.take i)) = some k
  rest : ∀ (i : Nat) shape, shapes[i]? = some shape → shape.kind.isFixed = true →
    (shapes.take i).any (·.kind == .star) = true →
    ∀ k, Gets bound k i ↔ k = s.leading ∧ s.argKinds[k]? = some .star

theorem leadingFormal?_min (n : Nat) : s.leadingFormal? (min n s.leading) = s.leadingFormal? n := by
  rw [Signature.leadingFormal?, Signature.leadingFormal?]
  by_cases early : n < s.leading
  · rw [Nat.min_eq_left (Nat.le_of_lt early)]
  · rw [Nat.min_eq_right (Nat.le_of_not_lt early), if_neg early, if_neg (Nat.lt_irrefl _)]

theorem isStar_of_isFixed {kind : ArgKind} (fixed : kind.isFixed = true) : kind.isStar = false := by
  cases kind with
  | pos | opt | named => rfl
  | star | star2 => cases fixed

theorem maps_bind (s : Signature) (shapes : List ArgShape) : Maps s shapes (bind s shapes) where
  length := length_formals_bind
  ascending _ := ascending_bind
  valid actuals listed i member := by
    obtain ⟨k, found⟩ := List.mem_iff_getElem?.mp listed
    exact (lt_of_gets ⟨actuals, found, member⟩).2
  once i shape given single k l first second := by
    rw [gets_bind_iff given single] at first second
    exact Option.some.inj (first.symm.trans second)
  positional i shape given fixed before k := by
    rw [gets_bind_iff given (isStar_of_isFixed fixed), formal?, if_pos fixed, cursorAfter_eq, before,
      if_neg Bool.false_ne_true, leadingFormal?_min]
  rest i shape given fixed before k := by
    rw [gets_bind_iff given (isStar_of_isFixed fixed), formal?, if_pos fixed, cursorAfter_eq, before,
      if_pos rfl, Signature.leadingFormal?, if_neg (Nat.lt_irrefl _), Option.ite_none_right_eq_some,
      Option.some.injEq]
    constructor
    · rintro ⟨star, rfl⟩
      exact ⟨rfl, star⟩
    · rintro ⟨rfl, star⟩
      exact ⟨star, rfl⟩

/-! ### What is left over -/

/-- An argument, not a collection, that goes to no formal. -/
structure LeftOver (shapes : List ArgShape) (bound : Bound) (i : Nat) (shape : ArgShape) : Prop where
  given : shapes[i]? = some shape
  single : shape.kind.isStar = false
  unbound : ∀ k, ¬ Gets bound k i

/-- The arguments, from the position `i` on, that are left over. -/
def leftOver (bound : Bound) (i : Nat) (shapes : List ArgShape) : List (ArgShape × Nat) :=
  (shapes.zipIdx i).filter fun (shape, i) => !shape.kind.isStar && !bound.any (·.contains i)

theorem leftOver_cons (bound : Bound) (i : Nat) (shape : ArgShape) (rest : List ArgShape) :
    leftOver bound i (shape :: rest) =
      if !shape.kind.isStar && !bound.any (·.contains i) then
        (shape, i) :: leftOver bound (i + 1) rest
      else leftOver bound (i + 1) rest := by
  rw [leftOver, List.zipIdx_cons, List.filter_cons]
  rfl

theorem mem_leftOver_iff : (shape, i) ∈ leftOver bound 0 shapes ↔ LeftOver shapes bound i shape := by
  have free : (!bound.any (·.contains i)) = true ↔ ∀ k, ¬ Gets bound k i := by
    rw [Bool.not_eq_true', ← Bool.not_eq_true, ← gets_iff_contains, not_exists]
  rw [leftOver, List.mem_filter, List.mem_zipIdx_iff_getElem?, Bool.and_eq_true, free,
    Bool.not_eq_true']
  exact ⟨fun ⟨given, single, unbound⟩ => ⟨given, single, unbound⟩,
    fun left => ⟨left.given, left.single, left.unbound⟩⟩

end ArgBinding

/-- What is wrong with an argument that no formal takes. -/
def ArgShape.excess (shape : ArgShape) : ArityError :=
  match shape.kind with
  | .named => .unexpectedKeyword (shape.name.getD "")
  | .pos | .opt | .star | .star2 => .tooMany

namespace Check

open ArgBinding

variable {env : Env} {c : Signature} {bound : Bound} {span : Span} {shapes : List ArgShape}

theorem reportUnbound_behind (st : State) (p : ArityError) (i : Nat) (tooMany : Bool)
    (rest : List ArgShape) :
    (report (.arity p c.name) span >>= fun _ =>
      reportUnbound c bound span i tooMany rest).outcome env st =
    (reportUnbound c bound span i tooMany rest).outcome env
      ((report (.arity p c.name) span).outcome env st).2 := rfl

/-- Each argument that is left over is reported, the positional ones together. -/
theorem outcome_reportUnbound (env : Env) (c : Signature) (bound : Bound) (span : Span)
    (shapes : List ArgShape) (st : State) (i : Nat) (tooMany : Bool)
    (reported : tooMany = true →
      diagnostic env st.file st.scope (.arity .tooMany c.name) span ∈ st.diagnostics) :
    ∃ ds, (reportUnbound c bound span i tooMany shapes).outcome env st =
        (tooMany || (leftOver bound i shapes).any (·.1.kind.isFixed), { st with diagnostics := ds }) ∧
      ∀ d, d ∈ ds ↔ d ∈ st.diagnostics ∨ ∃ left ∈ leftOver bound i shapes,
        d = diagnostic env st.file st.scope (.arity left.1.excess c.name) span := by
  induction shapes generalizing st i tooMany with
  | nil => exact ⟨st.diagnostics, by simp [reportUnbound, leftOver], by simp [leftOver]⟩
  | cons shape rest ih =>
    rw [leftOver_cons]
    unfold reportUnbound
    cases taken : bound.any (·.contains i) with
    | true =>
      rw [if_pos rfl, Bool.not_true, Bool.and_false, if_neg Bool.false_ne_true]
      exact ih st (i + 1) tooMany reported
    | false =>
      rw [if_neg Bool.false_ne_true, Bool.not_false, Bool.and_true]
      obtain ⟨new, outcome, added⟩ := outcome_report_adds env st (.arity shape.excess c.name) span
      have known : diagnostic env st.file st.scope (.arity shape.excess c.name) span ∈ new :=
        (added _).mpr (.inr rfl)
      cases kind : shape.kind with
      | star | star2 => exact ih st (i + 1) tooMany reported
      | named =>
        have excess : shape.excess = .unexpectedKeyword (shape.name.getD "") := by
          rw [ArgShape.excess, kind]
        obtain ⟨ds, others, rest⟩ := ih { st with diagnostics := new } (i + 1) tooMany fun before =>
          (added _).mpr (.inl (reported before))
        refine ⟨ds, ?_, fun d => ?_⟩
        · dsimp only
          rw [← excess, reportUnbound_behind, outcome, others]
          simp [kind, ArgKind.isFixed, ArgKind.isStar]
        · simp only [rest, added, ArgKind.isStar, Bool.not_false, if_true, List.mem_cons,
            exists_eq_or_imp, or_assoc]
      | pos | opt =>
        have excess : shape.excess = .tooMany := by
          rw [ArgShape.excess, kind]
        cases tooMany with
        | true =>
          -- The report was made before.
          have before := reported rfl
          obtain ⟨ds, others, rest⟩ := ih st (i + 1) true reported
          refine ⟨ds, others, fun d => ?_⟩
          simp only [rest, ArgKind.isStar, Bool.not_false, if_true, List.mem_cons, exists_eq_or_imp,
            excess]
          constructor
          · exact fun h => h.imp_right .inr
          · rintro (old | rfl | later)
            · exact .inl old
            · exact .inl before
            · exact .inr later
        | false =>
          rw [excess] at outcome added known
          obtain ⟨ds, others, rest⟩ := ih { st with diagnostics := new } (i + 1) true fun _ => known
          refine ⟨ds, ?_, fun d => ?_⟩
          · dsimp only
            rw [Bool.not_false, if_pos rfl, reportUnbound_behind, outcome, others]
            simp [kind, ArgKind.isFixed, ArgKind.isStar]
          · simp only [rest, added, ArgKind.isStar, Bool.not_false, if_true, List.mem_cons,
              exists_eq_or_imp, or_assoc, excess]

theorem exists_mem_leftOver (holds : ArgShape → Prop) :
    (∃ left ∈ leftOver bound 0 shapes, holds left.1) ↔
      ∃ i shape, LeftOver shapes bound i shape ∧ holds shape := by
  simp only [Prod.exists, mem_leftOver_iff]
  exact exists_comm

theorem any_leftOver_eq_false_iff : (leftOver bound 0 shapes).any (·.1.kind.isFixed) = false ↔
    ∀ i shape, LeftOver shapes bound i shape → shape.kind.isFixed = false := by
  simp only [List.any_eq_false, Prod.forall, mem_leftOver_iff, Bool.not_eq_true]
  exact forall_comm

/-- The count of the arguments reports what is left over or else, where no collection was given, that
a formal lacks one. -/
theorem outcome_checkCount (env : Env) (c : Signature) (bound : Bound) (span : Span)
    (shapes : List ArgShape) (st : State) :
    ∃ ds, (checkCount c shapes bound span).outcome env st = ((), { st with diagnostics := ds }) ∧
      ∀ d, d ∈ ds ↔ d ∈ st.diagnostics ∨
        (∃ i shape, LeftOver shapes bound i shape ∧
          d = diagnostic env st.file st.scope (.arity shape.excess c.name) span) ∨
        (lacksRequired c bound = true ∧ hasStar shapes = false ∧
          ∀ i shape, LeftOver shapes bound i shape → shape.kind.isFixed = false) ∧
          d = diagnostic env st.file st.scope (.arity .tooFew c.name) span := by
  obtain ⟨ds, outcome, added⟩ :=
    outcome_reportUnbound env c bound span shapes st 0 false (fun before => nomatch before)
  have counted : (checkCount c shapes bound span).outcome env st =
      (if lacksRequired c bound && !hasStar shapes &&
          !(leftOver bound 0 shapes).any (·.1.kind.isFixed) then
        report (.arity .tooFew c.name) span else pure ()).outcome env { st with diagnostics := ds } := by
    rw [checkCount, outcome_bind, outcome]
    rfl
  have unbound (d : Diagnostic) : d ∈ ds ↔ d ∈ st.diagnostics ∨
      ∃ i shape, LeftOver shapes bound i shape ∧
        d = diagnostic env st.file st.scope (.arity shape.excess c.name) span :=
    (added d).trans (or_congr_right (exists_mem_leftOver fun shape =>
      d = diagnostic env st.file st.scope (.arity shape.excess c.name) span))
  rw [counted, ← any_leftOver_eq_false_iff]
  split
  · rename_i lacks
    simp only [Bool.and_eq_true, Bool.not_eq_true', and_assoc] at lacks
    obtain ⟨all, outcome, more⟩ :=
      outcome_report_adds env { st with diagnostics := ds } (.arity .tooFew c.name) span
    refine ⟨all, outcome, fun d => ?_⟩
    rw [more, unbound, and_iff_right lacks, or_assoc]
  · rename_i lacks
    simp only [Bool.and_eq_true, Bool.not_eq_true', and_assoc] at lacks
    refine ⟨ds, rfl, fun d => ?_⟩
    simp only [unbound, lacks, false_and, or_false]

/-- Unexpected keywords of different names are reported apart. -/
theorem unexpectedKeyword_inj {st : State} {m n : String}
    (same : diagnostic env st.file st.scope (.arity (.unexpectedKeyword m) c.name) span =
      diagnostic env st.file st.scope (.arity (.unexpectedKeyword n) c.name) span) : m = n := by
  have message (p : Problem) : (diagnostic env st.file st.scope p span).message = p.text := by
    rw [diagnostic, Diagnostic.error]
  have text (name : String) : (Problem.arity (.unexpectedKeyword name) c.name).text =
      "Unexpected keyword argument " ++ Problem.quoted name ++ Problem.naming "for" c.name := rfl
  have texts := congrArg Diagnostic.message same
  rw [message, message, text, text, Problem.quoted, Problem.quoted] at texts
  simpa using texts

theorem length_argTypes_applied (s : Signature) (given : List Given) (bound : Bound) (span : Span)
    (env : Env) (st : State) :
    ((applied s given bound span).outcome env st).1.argTypes.length = s.argTypes.length := by
  have types (args : TypeArgs) : (s.expand args).argTypes.length = s.argTypes.length := by
    cases args with
    | nil => rfl
    | cons =>
      cases s
      exact (congrArg List.length (Ty.substituteEach_eq_map _ _)).trans (List.length_map _)
  exact types _

end Check

/-- In every call the arguments go to formals as they should, and the count of the arguments reports
exactly what goes to none, each time once, and formals that lack an argument. So whatever the check of
the call looks up, a formal of the function or of the function with its type arguments, or an argument,
is there. -/
theorem arguments_mapped (s : Signature) (aligned : s.argTypes.length = s.argKinds.length)
    (shapes : List ArgShape) :
    let bound := ArgBinding.bind s shapes
    ArgBinding.Maps s shapes bound ∧
    (∀ (env : Env) (st : State) (c : Signature) (span : Span),
      let made (p : ArityError) := Check.diagnostic env st.file st.scope (.arity p c.name) span
      ∃ new, ((Check.checkCount c shapes bound span).outcome env st).2 =
          { st with diagnostics := st.diagnostics ++ new } ∧
        new.Nodup ∧ (∀ d ∈ new, d ∉ st.diagnostics) ∧
        (∀ d, d ∈ st.diagnostics ++ new ↔ d ∈ st.diagnostics ∨
          (∃ i shape, ArgBinding.LeftOver shapes bound i shape ∧ d = made shape.excess) ∨
          (ArgBinding.lacksRequired c bound = true ∧ ArgBinding.hasStar shapes = false ∧
            (∀ i shape, ArgBinding.LeftOver shapes bound i shape → shape.kind.isFixed = false)) ∧
            d = made .tooFew) ∧
        ∀ m n, made (.unexpectedKeyword m) = made (.unexpectedKeyword n) → m = n) ∧
    ∀ (env : Env) (st : State) (given : List Given) (span : Span), given.map (·.shape) = shapes →
      ∀ k i, ArgBinding.Gets bound k i → s.argTypes[k]?.isSome = true ∧
        ((Check.applied s given bound span).outcome env st).1.argTypes[k]?.isSome = true ∧
        given[i]?.isSome = true := by
  intro bound
  refine ⟨ArgBinding.maps_bind s shapes, fun env st c span => ?_,
    fun env st given span alike k i gets => ?_⟩
  · intro made
    have frame : Effects.reporting.Frame st ((Check.checkCount c shapes bound span).outcome env st).2 :=
      Check.checkCount_keeps.frame env st
    obtain ⟨new, appended, distinct, fresh⟩ := frame.diagnostics
    obtain ⟨ds, outcome, added⟩ := Check.outcome_checkCount env c bound span shapes st
    rw [outcome] at appended
    obtain rfl : ds = st.diagnostics ++ new := appended
    exact ⟨new, congrArg Prod.snd outcome, distinct, fresh, added,
      fun m n => Check.unexpectedKeyword_inj⟩
  · obtain ⟨formal, argument⟩ := ArgBinding.lt_of_gets gets
    rw [← aligned] at formal
    rw [← alike, List.length_map] at argument
    refine ⟨?_, ?_, ?_⟩
    · rw [List.getElem?_eq_getElem formal]
      rfl
    · rw [← Check.length_argTypes_applied s given bound span env st] at formal
      rw [List.getElem?_eq_getElem formal]
      rfl
    · rw [List.getElem?_eq_getElem argument]
      rfl

/-- A function of two formals that take one argument each, one that collects the rest and one that must
be named. -/
def Signature.gathering : Signature :=
  .ofFormals [.any, .any, .any, .any] [.pos, .opt, .star, .named]
    [some "a", some "b", some "rest", some "key"] .noneType

/-- Of two positional arguments, a collection and a third positional argument, the collection goes to
what is left and so does the last one. An unexpected keyword is reported. -/
theorem gathering_mapped :
    let shapes : List ArgShape :=
      [⟨.pos, none⟩, ⟨.star, none⟩, ⟨.pos, none⟩, ⟨.named, some "key"⟩, ⟨.named, some "other"⟩]
    let bound := ArgBinding.bind .gathering shapes
    let program := Builder.bare.toProgram
    let after := (Check.checkCount .gathering shapes bound default).outcome
      (Env.ofProgram program default) (.initial program)
    bound = [[0], [1], [1, 2], [3]] ∧ ArgBinding.Gets bound 2 2 ∧
      ∃ d ∈ after.2.diagnostics, d.message = "Unexpected keyword argument \"other\"" := by
  intro shapes bound program after
  have mapped : bound = [[0], [1], [1, 2], [3]] := by decide
  obtain ⟨maps, reports, -⟩ := arguments_mapped .gathering rfl shapes
  refine ⟨mapped, (maps.rest 2 ⟨.pos, none⟩ rfl rfl rfl 2).mpr ⟨rfl, rfl⟩, ?_⟩
  have left : ArgBinding.LeftOver shapes bound 4 ⟨.named, some "other"⟩ :=
    ArgBinding.mem_leftOver_iff.mp (by rw [mapped]; decide)
  obtain ⟨new, outcome, -, -, added, -⟩ :=
    reports (Env.ofProgram program default) (.initial program) .gathering default
  have reported := (added _).mpr (.inr (.inl ⟨4, _, left, rfl⟩))
  have all : after.2.diagnostics = (State.initial program).diagnostics ++ new :=
    congrArg State.diagnostics outcome
  rw [← all] at reported
  exact ⟨_, reported, rfl⟩

end Gradual
