import Gradual.Builder
import Gradual.Checker.Module
import Gradual.Proofs.CallEffects

/-!
Calls with positional arguments and keywords. Positional arguments fill the formals in front from left to
right, keywords go to the formals of their names, and neither looks at what the other has filled. The
arguments are counted by what they leave over: arguments without a formal, and formals without one.
-/

namespace Gradual

/-! ### Where arguments go -/

namespace Signature

variable {s : Signature}

/-- How many formals, before any other one, take one positional argument each. -/
def leading (s : Signature) : Nat := s.argKinds.findIdx fun kind => !kind.isFixed

/-- The formal that a positional argument behind `n` others goes to. -/
def leadingFormal? (s : Signature) (n : Nat) : Option Nat :=
  if n < s.leading then some n
  else if s.argKinds[s.leading]? = some .star then some s.leading else none

theorem isFixed_of_lt_leading {n : Nat} (early : n < s.leading) :
    ∃ kind, s.argKinds[n]? = some kind ∧ kind.isFixed = true := by
  have fixed := List.not_of_lt_findIdx early
  have inside : n < s.argKinds.length := Nat.lt_of_lt_of_le early List.findIdx_le_length
  exact ⟨s.argKinds[n], List.getElem?_eq_getElem inside, by simpa using fixed⟩

theorem isFixed_leading {kind : ArgKind} (found : s.argKinds[s.leading]? = some kind) :
    kind.isFixed = false := by
  obtain ⟨inside, rfl⟩ := List.getElem?_eq_some_iff.mp found
  have first : (!s.argKinds[s.leading].isFixed) = true := List.findIdx_getElem (w := inside)
  simpa using first

end Signature

namespace ArgBinding

variable {s : Signature}

/-- The formal that an argument goes to, given how many positional arguments stand before it. -/
def formal? (s : Signature) (n : Nat) (shape : ArgShape) : Option Nat :=
  if shape.kind.isFixed then s.leadingFormal? n else keywordFormal? s shape.name

/-- The formals that arguments go to, behind `n` positional arguments. -/
def formals (s : Signature) : (n : Nat) → List ArgShape → List (Option Nat)
  | _, [] => []
  | n, shape :: rest =>
    formal? s n shape :: formals s (if shape.kind.isFixed then n + 1 else n) rest

/-- An argument goes to its formal, if it has one, whatever the formals have already. -/
theorem step_eq {n i : Nat} {shape : ArgShape} {bound : Bound} (single : shape.kind.isStar = false) :
    step s i shape (min n s.leading) bound =
      (min (if shape.kind.isFixed then n + 1 else n) s.leading,
        ((formal? s n shape).map (give i · bound)).getD bound) := by
  rw [step, formal?]
  cases kind : shape.kind with
  | star | star2 =>
    rw [kind] at single
    cases single
  | named =>
    simp only [ArgKind.isFixed, Bool.false_eq_true, if_false]
    cases keywordFormal? s shape.name <;> rfl
  | pos | opt =>
    simp only [ArgKind.isFixed, if_true]
    rw [Signature.leadingFormal?]
    by_cases early : n < s.leading
    · obtain ⟨own, found, fixed⟩ := Signature.isFixed_of_lt_leading early
      rw [Nat.min_eq_left (Nat.le_of_lt early), Nat.min_eq_left early, if_pos early, found]
      cases own with
      | pos | opt => rfl
      | star | named | star2 => cases fixed
    · -- The cursor rests behind the leading formals.
      rw [Nat.min_eq_right (Nat.le_of_not_lt early), Nat.min_eq_right (by omega), if_neg early]
      cases found : s.argKinds[s.leading]? with
      | none => rfl
      | some own =>
        have free := Signature.isFixed_leading found
        cases own with
        | pos | opt => cases free
        | star | named | star2 => rfl

theorem length_give {i j k : Nat} {bound : Bound} :
    (give i j bound)[k]?.map List.length =
      bound[k]?.map fun actuals => actuals.length + if j = k then 1 else 0 := by
  rw [give, List.getElem?_modify]
  cases bound[k]? with
  | none => rfl
  | some actuals => by_cases same : j = k <;> simp [same]

/-- A formal gets each argument that goes to it. -/
theorem length_run {k : Nat} {shapes : List ArgShape}
    (single : ∀ shape ∈ shapes, shape.kind.isStar = false) {n i : Nat} {bound : Bound} :
    (run s i (min n s.leading) bound shapes)[k]?.map List.length =
      bound[k]?.map fun actuals => actuals.length + (formals s n shapes).count (some k) := by
  induction shapes generalizing n i bound with
  | nil => simp [run, formals]
  | cons shape rest ih =>
    obtain ⟨first, later⟩ := List.forall_mem_cons.mp single
    rw [run, step_eq first]
    dsimp only
    have apart (b : Bound) (c : Nat) : b[k]?.map (fun actuals => actuals.length + c) =
        (b[k]?.map List.length).map (· + c) := by
      rw [Option.map_map]
      rfl
    rw [ih later, formals, List.count_cons]
    cases target : formal? s n shape with
    | none => simp
    | some j =>
      rw [Option.map_some, Option.getD_some, apart, length_give, Option.map_map]
      refine congrArg (Option.map · bound[k]?) (funext fun actuals => ?_)
      by_cases same : j = k
      · simp [same]
        omega
      · simp [same]

theorem length_bind {shapes : List ArgShape}
    (single : ∀ shape ∈ shapes, shape.kind.isStar = false) (k : Nat) :
    (bind s shapes)[k]?.map List.length =
      s.argKinds[k]?.map fun _ => (formals s 0 shapes).count (some k) := by
  have counted : (run s 0 (min 0 s.leading) (s.argKinds.map fun _ => []) shapes)[k]?.map
    List.length = _ := length_run single
  rw [Nat.zero_min, List.getElem?_map, Option.map_map] at counted
  rw [bind, counted]
  refine congrArg (Option.map · s.argKinds[k]?) (funext fun _ => ?_)
  simp

/-- How many positional arguments there are. -/
def positionals (shapes : List ArgShape) : Nat := shapes.countP (·.kind.isFixed)

/-- How many keywords go to the formal at a position. -/
def keywords (s : Signature) (shapes : List ArgShape) (k : Nat) : Nat :=
  shapes.countP fun shape => !shape.kind.isFixed && keywordFormal? s shape.name == some k

theorem leadingFormal?_eq_some_iff {n k : Nat} (own : s.argKinds[k]? ≠ some .star) :
    s.leadingFormal? n = some k ↔ n = k ∧ k < s.leading := by
  rw [Signature.leadingFormal?]
  by_cases early : n < s.leading
  · rw [if_pos early, Option.some.injEq]
    exact ⟨fun same => ⟨same, same ▸ early⟩, And.left⟩
  · rw [if_neg early]
    constructor
    · intro rest
      obtain ⟨star, same⟩ := Option.ite_none_right_eq_some.mp rest
      cases same
      exact absurd star own
    · rintro ⟨rfl, late⟩
      exact absurd late early

/-- A formal that does not collect arguments gets the positional argument at its place and the keywords
of its name. -/
theorem count_formals {k : Nat} (own : s.argKinds[k]? ≠ some .star) {shapes : List ArgShape} {n : Nat} :
    (formals s n shapes).count (some k) =
      (if n ≤ k ∧ k < min (n + positionals shapes) s.leading then 1 else 0) + keywords s shapes k := by
  induction shapes generalizing n with
  | nil =>
    have nothing : ¬ (n ≤ k ∧ k < min (n + positionals []) s.leading) := by
      simp only [positionals, List.countP_nil]
      omega
    rw [if_neg nothing]
    rfl
  | cons shape rest ih =>
    have arguments : positionals (shape :: rest) =
      positionals rest + if shape.kind.isFixed then 1 else 0 := List.countP_cons
    have names : keywords s (shape :: rest) k = keywords s rest k +
      if !shape.kind.isFixed && keywordFormal? s shape.name == some k then 1 else 0 := List.countP_cons
    rw [formals, List.count_cons, ih, arguments, names, formal?]
    cases shape.kind.isFixed with
    | true =>
      have goes : (s.leadingFormal? n == some k) = true ↔ n = k ∧ k < s.leading := by
        rw [beq_iff_eq, leadingFormal?_eq_some_iff own]
      simp only [if_true, goes, Bool.not_true, Bool.false_and, Bool.false_eq_true, if_false]
      split_ifs <;> omega
    | false =>
      simp only [Bool.false_eq_true, if_false, Bool.not_false, Bool.true_and, Nat.add_zero]
      omega

end ArgBinding

/-! ### Reports on the number of arguments -/

/-- No report says that a call has a wrong number of arguments. -/
def State.NoCountReports (s : State) : Prop := ∀ d ∈ s.diagnostics, d.code ≠ Code.argCount.text

/-- The effects of what does nothing but report. -/
def Effects.reporting : Effects := ⟨fun _ => False, fun _ _ => False, fun _ => False, false, false⟩

namespace Check

variable {env : Env} {st st' : State} {s callee : Signature} {bound : ArgBinding.Bound} {span : Span}

theorem noCountReports_before (frame : Effects.reporting.Frame st st') (h : st'.NoCountReports) :
    st.NoCountReports := by
  obtain ⟨new, diagnostics, -, -⟩ := frame.diagnostics
  intro d member
  exact h d (diagnostics ▸ List.mem_append_left new member)

theorem not_noCountReports_report {p : ArityError} {name : Option String} :
    ¬ ((report (.arity p name) span).outcome env st).2.NoCountReports := by
  intro h
  refine h (diagnostic env st.file st.scope (.arity p name) span) ?_ rfl
  rw [outcome_report]
  split
  · assumption
  · exact List.mem_append_right _ (List.mem_singleton.mpr rfl)

theorem reportUnbound_fst {i : Nat} {shapes : List ArgShape}
    (h : ((reportUnbound callee bound span i false shapes).outcome env st).2.NoCountReports) :
    ((reportUnbound callee bound span i false shapes).outcome env st).1 = false := by
  induction shapes generalizing i st with
  | nil => rfl
  | cons shape rest ih =>
    -- A report stays, whatever is reported of the other arguments.
    have reported {p : ArityError} {tooMany : Bool} :
        ¬ ((report (.arity p callee.name) span >>= fun _ =>
          reportUnbound callee bound span (i + 1) tooMany rest).outcome env st).2.NoCountReports := by
      rw [outcome_bind]
      exact fun h => not_noCountReports_report
        (noCountReports_before (reportUnbound_keeps.frame env _) h)
    revert h
    unfold reportUnbound
    by_cases taken : bound.any (·.contains i) = true
    · rw [if_pos taken]
      exact ih
    · rw [if_neg taken]
      cases shape.kind with
      | pos | opt | named => exact fun h => absurd h reported
      | star | star2 => exact ih

/-- Where nothing is reported, all formals that need an argument have one. -/
theorem lacksRequired_of_checkCount {shapes : List ArgShape}
    (single : ArgBinding.hasStar shapes = false)
    (h : ((checkCount callee shapes bound span).outcome env st).2.NoCountReports) :
    ArgBinding.lacksRequired callee bound = false := by
  unfold checkCount at h
  rw [outcome_bind] at h
  cases lacks : ArgBinding.lacksRequired callee bound with
  | false => rfl
  | true =>
    cases tooMany : ((reportUnbound callee bound span 0 false shapes).outcome env st).1 with
    | false =>
      rw [lacks, single, tooMany] at h
      exact absurd h not_noCountReports_report
    | true =>
      rw [lacks, single, tooMany] at h
      have none := reportUnbound_fst h
      rw [tooMany] at none
      cases none

theorem shapes_giveFrom {context : Nat → ArgShape → Option Ty} {i : Nat} {args : List Arg} :
    ((giveFrom context i args).outcome env st).1.map (·.shape) = args.map (·.shape) := by
  induction args generalizing i st with
  | nil => rfl
  | cons arg rest ih => exact congrArg (arg.shape :: ·) ih

theorem argKinds_applied {given : List Given} :
    ((applied s given bound span).outcome env st).1.argKinds = s.argKinds := by
  have kinds (args : TypeArgs) : (s.expand args).argKinds = s.argKinds := by
    cases args <;> cases s <;> rfl
  exact kinds _

/-- The check of a call counts the arguments for formals of the same kinds. -/
theorem lacksRequired_of_checkGiven {given : List Given}
    (single : ArgBinding.hasStar (given.map (·.shape)) = false)
    (h : ((checkGiven s given bound span).outcome env st).2.NoCountReports) :
    ArgBinding.lacksRequired s bound = false := by
  have counted {callee : Signature} {st : State} {result : CallResult}
      (kinds : callee.argKinds = s.argKinds)
      (h : ((checkCount callee (given.map Given.shape) bound span >>= fun _ =>
        checkArguments callee given bound span >>= fun _ =>
          Pure.pure result).outcome env st).2.NoCountReports) :
      ArgBinding.lacksRequired s bound = false := by
    rw [outcome_bind] at h
    have before := noCountReports_before (checkArguments_keeps.frame env _) h
    have lacks := lacksRequired_of_checkCount single before
    rwa [ArgBinding.lacksRequired, kinds] at lacks
  unfold checkGiven at h
  split at h
  · exact counted rfl h
  · rw [outcome_bind] at h
    exact counted argKinds_applied h

theorem lacksRequired_of_checkCall {callee : Ty} {args : List Arg}
    (resolves : resolveCallee env st.vars maxCallSteps callee = .callable s)
    (single : ∀ shape ∈ args.map (·.shape), shape.kind.isStar = false)
    (counted : ((checkCall callee args span).outcome env st).2.NoCountReports) :
    ArgBinding.lacksRequired s (ArgBinding.bind s (args.map (·.shape))) = false := by
  obtain ⟨given, st', infers⟩ :
      ∃ given st', (giveFor (.callable s) args).outcome env st = (given, st') := ⟨_, _, rfl⟩
  have alike : given.map Given.shape = args.map (·.shape) := by
    have kept : ((giveFor (.callable s) args).outcome env st).1.map Given.shape =
      args.map (·.shape) := shapes_giveFrom
    rwa [infers] at kept
  rw [outcome_checkCall resolves infers rfl] at counted
  refine lacksRequired_of_checkGiven ?_ counted
  rw [alike, ArgBinding.hasStar, List.any_eq_false]
  exact fun shape member => Bool.not_eq_true _ ▸ single shape member

end Check

/-- Where no formal lacks an argument that it needs, each one that needs some has some. -/
theorem ArgBinding.length_pos_of_lacksRequired {s : Signature} {bound : Bound} {k : Nat}
    {actuals : List Nat} (lacks : lacksRequired s bound = false)
    (formal : s.argKinds[k]? = some .pos) (found : bound[k]? = some actuals) :
    0 < actuals.length := by
  rw [lacksRequired, List.any_eq_false] at lacks
  have paired : (ArgKind.pos, actuals) ∈ s.argKinds.zip bound :=
    List.mem_of_getElem? (List.getElem?_zip_eq_some.mpr ⟨formal, found⟩)
  have some := lacks _ paired
  refine List.length_pos_iff.mpr fun empty => some ?_
  rw [empty]
  rfl

/-- Where the check of a call reports no wrong number of arguments, a formal has the positional argument
at its place, if there is one, and all keywords of its name; and if it needs an argument it has one. So
it has more than one exactly if it is filled by position and named too, or named more than once. -/
theorem formal_filled_by_position_and_name {env : Env} {st : State} {callee : Ty} {s : Signature}
    {args : List Arg} {span : Span}
    (resolves : Check.resolveCallee env st.vars Check.maxCallSteps callee = .callable s)
    (single : ∀ arg ∈ args, arg.shape.kind.isStar = false)
    (counted : ((Check.checkCall callee args span).outcome env st).2.NoCountReports) {k : Nat}
    {kind : ArgKind} (formal : s.argKinds[k]? = some kind) (own : kind.isStar = false) :
    ∃ actuals, (ArgBinding.bind s (args.map (·.shape)))[k]? = some actuals ∧
      actuals.length =
        (if k < min (ArgBinding.positionals (args.map (·.shape))) s.leading then 1 else 0) +
          ArgBinding.keywords s (args.map (·.shape)) k ∧
      (kind = .pos → 0 < actuals.length) := by
  have shapes : ∀ shape ∈ args.map (·.shape), shape.kind.isStar = false :=
    fun shape member => by
      obtain ⟨arg, listed, rfl⟩ := List.mem_map.mp member
      exact single arg listed
  have collects : s.argKinds[k]? ≠ some .star := by
    rw [formal]
    rintro ⟨⟩
    cases own
  have length := ArgBinding.length_bind (s := s) shapes k
  rw [formal, Option.map_some, Option.map_eq_some_iff, ArgBinding.count_formals collects] at length
  obtain ⟨actuals, found, length⟩ := length
  refine ⟨actuals, found, by simpa using length, ?_⟩
  rintro rfl
  have lacks := Check.lacksRequired_of_checkCall resolves shapes counted
  exact ArgBinding.length_pos_of_lacksRequired lacks formal found

/-- A function of one argument, which can be given by position or by name. -/
def Signature.single : Signature := .ofFormals [.any] [.pos] [some "x"] .noneType

/-- With an argument by position and another one by name it has two, and nothing is reported. -/
theorem single_filled_twice :
    let program := Builder.bare.toProgram
    let args := [Arg.positional (.known .any), ⟨⟨.named, some "x"⟩, .known .any⟩]
    let call := (Check.checkCall (.callable .single) args default).outcome
      (Env.ofProgram program default) (.initial program)
    call.2.diagnostics = [] ∧ ∃ actuals,
      (ArgBinding.bind .single (args.map (·.shape)))[0]? = some actuals ∧ actuals.length = 2 := by
  intro program args call
  have unreported : call.2.diagnostics = [] := by decide +kernel
  have counted : call.2.NoCountReports := by
    rw [State.NoCountReports, unreported]
    exact List.forall_mem_nil _
  have simple : ∀ arg ∈ args, arg.shape.kind.isStar = false := by decide
  obtain ⟨actuals, found, length, -⟩ :=
    formal_filled_by_position_and_name (s := .single) (k := 0) (by rfl) simple counted rfl rfl
  have both : ArgBinding.positionals (args.map (·.shape)) = 1 ∧ Signature.single.leading = 1 ∧
      ArgBinding.keywords .single (args.map (·.shape)) 0 = 1 := by decide
  rw [both.1, both.2.1, both.2.2] at length
  exact ⟨unreported, actuals, found, length⟩

end Gradual
