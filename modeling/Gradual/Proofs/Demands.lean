import Gradual.Proofs.KeywordCalls
import Gradual.Proofs.Signatures

/-!
What rules demand. A rule that compares does nothing where all is as it should be, and reports something
where it is not; put together, such rules demand all that each of them does. The check of a call whose
arguments have been inferred demands that each argument has a formal and fits it, and that no formal lacks an
argument that it needs.
-/

namespace Gradual.Check

variable {α β : Type} {env : Env} {s : State}

/-- What an action reports where nothing was reported before, so that nothing is left out as reported
already. -/
def reports (x : Check α) (env : Env) (s : State) : List Diagnostic :=
  (x.outcome env { s with diagnostics := [] }).2.diagnostics

/-- The action reports nothing. -/
def Silent (x : Check α) (env : Env) (s : State) : Prop := x.reports env s = []

/-- Whatever was reported before, the action does nothing and answers `a` where the condition holds, and it
reports something where it does not. -/
structure Demands (x : Check α) (env : Env) (s : State) (c : Prop) (a : α) : Prop where
  holds : c → ∀ ds, x.outcome env { s with diagnostics := ds } = (a, { s with diagnostics := ds })
  fails : ¬ c → ¬ x.Silent env s

/-- What was reported before stays reported. -/
theorem diagnostics_eq_nil_iff {w : Effects} {x : Check α} (keeps : Keeps w x) :
    (x.outcome env s).2.diagnostics = [] ↔ s.diagnostics = [] ∧ x.Silent env s := by
  obtain ⟨new, diagnostics, -, -⟩ := (keeps.frame env s).diagnostics
  have fresh : s.diagnostics = [] → { s with diagnostics := [] } = s := by
    intro none
    rw [← none]
  constructor
  · intro none
    have before := (List.append_eq_nil_iff.mp (diagnostics.symm.trans none)).1
    rw [Silent, reports, fresh before]
    exact ⟨before, none⟩
  · rintro ⟨before, silent⟩
    rwa [Silent, reports, fresh before] at silent

/-- What is reported first stays reported. -/
theorem Silent.first {w : Effects} {x : Check α} {f : α → Check β} (later : ∀ a, Keeps w (f a))
    (h : (x >>= f).Silent env s) : x.Silent env s :=
  ((diagnostics_eq_nil_iff (later _)).mp h).1

theorem not_silent_report {p : Problem} {span : Span} : ¬ (report p span).Silent env s := by
  rw [Silent, reports, outcome_report]
  exact List.cons_ne_nil _ _

namespace Demands

variable {x : Check α} {f : α → Check β} {c d : Prop} {a : α} {b : β}

theorem silent_iff (h : Demands x env s c a) : x.Silent env s ↔ c := by
  refine ⟨fun silent => Classical.byContradiction fun unmet => h.fails unmet silent, fun met => ?_⟩
  rw [Silent, reports, h.holds met]

/-- Where the condition holds, the state is as before. -/
theorem outcome_eq (h : Demands x env s c a) (met : c) : x.outcome env s = (a, s) := h.holds met s.diagnostics

theorem congr (h : Demands x env s c a) (same : c ↔ d) : Demands x env s d a := (propext same) ▸ h

/-- What another action does too. -/
theorem of_outcome_eq {y : Check α} (h : Demands x env s c a) (same : ∀ s, y.outcome env s = x.outcome env s) :
    Demands y env s c a where
  holds met ds := (same _).trans (h.holds met ds)
  fails unmet silent := h.fails unmet (by rwa [Silent, reports, same] at silent)

theorem of_reads (h : ∀ s, x.outcome env s = (a, s)) : Demands x env s True a :=
  ⟨fun _ _ => h _, fun unmet => absurd True.intro unmet⟩

theorem pure : Demands (Pure.pure a : Check α) env s True a := .of_reads fun _ => rfl

theorem report {p : Problem} {span : Span} : Demands (report p span) env s False () :=
  ⟨False.elim, fun _ => not_silent_report⟩

theorem bind (first : Demands x env s c a) (second : c → Demands (f a) env s d b)
    (later : ∀ a, Keeps Effects.reporting (f a)) : Demands (x >>= f) env s (c ∧ d) b where
  holds := by
    rintro ⟨met, met'⟩ ds
    rw [outcome_bind, first.holds met]
    exact (second met).holds met' ds
  fails := by
    intro unmet silent
    have met := first.silent_iff.mp (silent.first later)
    rw [Silent, reports, outcome_bind, first.holds met] at silent
    exact unmet ⟨met, (second met).silent_iff.mp silent⟩

/-- Behind something that only reads. -/
theorem after (first : ∀ ds, x.outcome env { s with diagnostics := ds } = (a, { s with diagnostics := ds }))
    (second : Demands (f a) env s d b) : Demands (x >>= f) env s d b where
  holds met ds := by
    rw [outcome_bind, first]
    exact second.holds met ds
  fails unmet silent := by
    rw [Silent, reports, outcome_bind, first] at silent
    exact second.fails unmet silent

theorem reportUnless {p : Problem} {span : Span} (c : Bool) :
    Demands (if !c then Check.report p span else Pure.pure ()) env s (c = true) () := by
  cases c with
  | true => exact Demands.pure.congr (iff_of_true True.intro rfl)
  | false => exact Demands.report.congr (iff_of_false id Bool.false_ne_true)

theorem forM {xs : List α} {f : α → Check Unit} {c : α → Prop}
    (h : ∀ x ∈ xs, Demands (f x) env s (c x) ()) (later : ∀ x, Keeps Effects.reporting (f x)) :
    Demands (xs.forM f) env s (∀ x ∈ xs, c x) () := by
  induction xs with
  | nil => exact Demands.pure.congr (iff_of_true True.intro (List.forall_mem_nil _))
  | cons x xs ih =>
    obtain ⟨first, others⟩ := List.forall_mem_cons.mp h
    refine (Demands.bind first (fun _ => ih others) fun _ => .forM fun y _ => later y).congr ?_
    exact List.forall_mem_cons.symm

end Demands

/-! ### Counting -/

variable {callee : Signature} {bound : ArgBinding.Bound} {span : Span}

/-- Each argument that stands for itself alone has a formal. -/
def Placed (shapes : List ArgShape) (bound : ArgBinding.Bound) : Prop :=
  ∀ j shape, shapes[j]? = some shape → shape.kind.isStar = false → bound.any (·.contains j) = true

theorem placed_iff {shapes : List ArgShape} (single : ArgBinding.hasStar shapes = false) :
    Placed shapes bound ↔ ∀ j < shapes.length, bound.any (·.contains j) = true := by
  constructor
  · intro placed j inside
    refine placed j shapes[j] (List.getElem?_eq_getElem inside) ?_
    exact Bool.eq_false_iff.mpr (List.any_eq_false.mp single shapes[j] (List.getElem_mem inside))
  · intro all j shape found _
    exact all j (List.getElem?_eq_some_iff.mp found).1

/-- Each argument from the position `i` on that stands for itself alone has a formal. -/
theorem reportUnbound_demands {shapes : List ArgShape} {i : Nat} :
    Demands (reportUnbound callee bound span i false shapes) env s
      (∀ j shape, shapes[j]? = some shape → shape.kind.isStar = false →
        bound.any (·.contains (i + j)) = true) false := by
  induction shapes generalizing i with
  | nil =>
    refine Demands.pure.congr (iff_of_true True.intro fun j shape found => ?_)
    cases found
  | cons first rest ih =>
    have later : (∀ j shape, rest[j]? = some shape → shape.kind.isStar = false →
          bound.any (·.contains (i + 1 + j)) = true) ↔
        ∀ j shape, rest[j]? = some shape → shape.kind.isStar = false →
          bound.any (·.contains (i + (j + 1))) = true := by
      simp only [Nat.add_assoc, Nat.add_comm 1]
    simp only [forall_getElem?_cons, Nat.add_zero, ← later]
    unfold reportUnbound
    by_cases taken : bound.any (·.contains i) = true
    · rw [if_pos taken]
      exact ih.congr (and_iff_right fun _ => taken).symm
    · rw [if_neg taken]
      cases kind : first.kind with
      | pos | opt | named =>
        refine ⟨fun all => absurd (all.1 rfl) taken, fun _ silent => ?_⟩
        exact not_silent_report (silent.first (w := .reporting) fun _ => reportUnbound_keeps)
      | star | star2 => exact ih.congr (and_iff_right Bool.noConfusion).symm

/-- The arguments are counted: each has a formal, and each formal that needs an argument has one, where none
stands for several. -/
theorem checkCount_demands {shapes : List ArgShape} :
    Demands (checkCount callee shapes bound span) env s
      (Placed shapes bound ∧
        (ArgBinding.lacksRequired callee bound && !ArgBinding.hasStar shapes) = false) () := by
  have all : (∀ j shape, shapes[j]? = some shape → shape.kind.isStar = false →
      bound.any (·.contains (0 + j)) = true) ↔ Placed shapes bound := by
    simp only [Nat.zero_add, Placed]
  refine Demands.bind (reportUnbound_demands.congr all) (fun _ => ?_) fun tooMany => ?_
  · rw [Bool.not_false, Bool.and_true]
    cases ArgBinding.lacksRequired callee bound && !ArgBinding.hasStar shapes with
    | true => exact Demands.report.congr (iff_of_false id nofun)
    | false => exact Demands.pure.congr (iff_of_true True.intro rfl)
  · split
    · exact report_keeps
    · exact .done

/-! ### Comparing -/

/-- The argument has a value, and the value fits. -/
def Fits (o : TypeOrder) (formal : Ty) (g : Given) : Prop :=
  g.seenType.isVoid = false ∧ o.isSubtype g.seenType formal = true

theorem checkArgument_demands {formal : Ty} {i : Nat} {g : Given} :
    Demands (checkArgument callee formal i g span) env s (Fits env.order formal g) () := by
  unfold checkArgument
  cases void : g.seenType.isVoid with
  | true => exact Demands.report.congr (iff_of_false id fun fits => nomatch void.symm.trans fits.1)
  | false =>
    refine Demands.after (fun _ => rfl) ((Demands.reportUnless _).congr ?_)
    exact (and_iff_right void).symm

theorem checkArguments_demands {given : List Given} :
    Demands (checkArguments callee given bound span) env s
      (∀ p ∈ callee.withBound bound, ∀ g, given[p.2]? = some g → Fits env.order p.1 g) () := by
  refine .forM (fun p _ => ?_) fun p => ?_
  · dsimp only
    cases given[p.2]? with
    | none => exact Demands.pure.congr (iff_of_true True.intro fun g found => nomatch found)
    | some g => exact checkArgument_demands.congr (by simp only [Option.some.injEq, forall_eq'])
  · dsimp only
    split
    · exact checkArgument_keeps
    · exact .done

/-! ### Type arguments -/

/-- Where the action reports nothing, it does nothing. -/
def Quiet (x : Check α) (env : Env) (s : State) : Prop := ∃ c a, Demands x env s c a

namespace Quiet

variable {x : Check α} {f : α → Check β} {a : α}

theorem demands (h : x.Quiet env s) : Demands x env s (x.Silent env s) (x.outcome env s).1 := by
  obtain ⟨c, a, demands⟩ := h
  refine ⟨fun silent => ?_, id⟩
  have met := demands.silent_iff.mp silent
  rw [demands.outcome_eq met]
  exact demands.holds met

theorem pure : (Pure.pure a : Check α).Quiet env s := ⟨True, a, .pure⟩

/-- An action that answers behind a report. -/
theorem reporting {p : Problem} {span : Span} : (do report p span; return a).Quiet env s :=
  ⟨_, a, Demands.report.bind (fun _ => .pure) fun _ => .done⟩

theorem bind (first : x.Quiet env s) (second : ∀ a, (f a).Quiet env s)
    (later : ∀ a, Keeps Effects.reporting (f a)) : (x >>= f).Quiet env s := by
  obtain ⟨c, a, demands⟩ := first
  obtain ⟨d, b, demands'⟩ := second a
  exact ⟨_, _, demands.bind (fun _ => demands') later⟩

theorem after (first : ∀ ds, x.outcome env { s with diagnostics := ds } = (a, { s with diagnostics := ds }))
    (second : (f a).Quiet env s) : (x >>= f).Quiet env s := by
  obtain ⟨d, b, demands⟩ := second
  exact ⟨d, b, demands.after first⟩

end Quiet

theorem typeArgument_quiet {fromArgs fromContext : Constraints} {position : Nat} {v : TypeVar} :
    (typeArgument callee fromArgs fromContext span position v).Quiet env s := by
  refine .after (fun _ => rfl) ?_
  extract_lets o bounds inferred
  split
  · exact .reporting
  · split
    · exact .pure
    · split
      · exact .pure
      · exact .reporting

theorem typeArguments_quiet {fromArgs fromContext : Constraints} {i : Nat} {vs : List TypeVar} :
    (typeArguments callee fromArgs fromContext span i vs).Quiet env s := by
  induction vs generalizing i with
  | nil => exact .pure
  | cons v rest ih =>
    refine typeArgument_quiet.bind (fun type => ?_) fun type => typeArguments_keeps.seq fun _ => .done
    exact ih.bind (fun _ => .pure) fun _ => .done

theorem applied_quiet {given : List Given} : (applied callee given bound span).Quiet env s := by
  refine .after (fun _ => rfl) (.after (a := s.scope.expected.head?.join) (fun _ => rfl) ?_)
  exact typeArguments_quiet.bind (fun _ => .pure) fun _ => .done

/-! ### Calls -/

theorem resolveCallee_callable {vars : VarTypes} (steps : Nat) :
    resolveCallee env vars steps (.callable callee) = .callable callee := by
  cases steps <;> rfl

theorem resolveCallee_overloaded {vars : VarTypes} (steps : Nat) {items : List Signature} :
    resolveCallee env vars steps (.overloaded items) = .overloaded items := by
  cases steps <;> rfl

/-- The signature by which a call is checked: that of the callee with its type arguments. -/
def called (callee : Signature) (given : List Given) (bound : ArgBinding.Bound) (span : Span) :
    Check Signature :=
  if callee.quantified.isEmpty then return callee else applied callee given bound span

theorem called_of_unquantified {given : List Given} (unquantified : callee.quantified = []) :
    called callee given bound span = Pure.pure callee := by
  rw [called, unquantified]
  rfl

theorem called_quiet {given : List Given} : (called callee given bound span).Quiet env s := by
  unfold called
  split
  · exact .pure
  · exact applied_quiet

theorem checkGiven_eq (given : List Given) : checkGiven callee given bound span = (do
    let callee ← called callee given bound span
    checkCount callee (given.map (·.shape)) bound span
    checkArguments callee given bound span
    return ⟨callee.ret, .callable callee⟩) := by
  unfold checkGiven called
  split <;> rfl

/-- The check of a call demands that type arguments are found, that the arguments have formals, as many as
are needed, and that they fit them. -/
theorem checkGiven_demands {given : List Given} :
    let shapes := given.map (·.shape)
    let used := ((called callee given bound span).outcome env s).1
    Demands (checkGiven callee given bound span) env s
      ((called callee given bound span).Silent env s ∧
        (Placed shapes bound ∧ (ArgBinding.lacksRequired used bound && !ArgBinding.hasStar shapes) = false) ∧
        ∀ p ∈ used.withBound bound, ∀ g, given[p.2]? = some g → Fits env.order p.1 g)
      ⟨used.ret, .callable used⟩ := by
  intro shapes used
  have compared : Demands (checkArguments used given bound span) env s
      (∀ p ∈ used.withBound bound, ∀ g, given[p.2]? = some g → Fits env.order p.1 g) () :=
    checkArguments_demands
  have answered := compared.bind
    (fun _ => .pure (a := (⟨used.ret, .callable used⟩ : CallResult))) fun _ => .done
  rw [checkGiven_eq]
  refine called_quiet.demands.bind (fun _ => ?_) fun used => ?_
  · refine checkCount_demands.bind (fun _ => ?_) fun _ => checkArguments_keeps.seq fun _ => .done
    exact answered.congr (and_iff_left True.intro)
  · exact checkCount_keeps.seq fun _ => checkArguments_keeps.seq fun _ => .done

/-- The same where each argument stands for one value. -/
theorem checkGiven_demands_of_single {given : List Given}
    (single : ArgBinding.hasStar (given.map (·.shape)) = false)
    (values : ∀ g ∈ given, g.seenType.isVoid = false) :
    let used := ((called callee given bound span).outcome env s).1
    Demands (checkGiven callee given bound span) env s
      ((called callee given bound span).Silent env s ∧
        ((∀ i < given.length, bound.any (·.contains i) = true) ∧
          ArgBinding.lacksRequired used bound = false) ∧
        ∀ p ∈ used.withBound bound, given[p.2]?.all (env.order.isSubtype ·.seenType p.1) = true)
      ⟨used.ret, .callable used⟩ := by
  intro used
  refine checkGiven_demands.congr (and_congr_right fun _ => and_congr (and_congr ?_ ?_) ?_)
  · rw [placed_iff single, List.length_map]
  · rw [single, Bool.not_false, Bool.and_true]
  · refine forall₂_congr fun p _ => ?_
    cases found : given[p.2]? with
    | none => exact iff_of_true (fun g found => nomatch found) rfl
    | some g =>
      simp only [Option.some.injEq, forall_eq', Option.all_some]
      exact and_iff_right (values g (List.mem_of_getElem? found))

/-- Where a call has nothing to report, whatever its arguments are, each of them has a formal. -/
theorem bound_of_checkGiven_silent {given : List Given}
    (single : ArgBinding.hasStar (given.map (·.shape)) = false)
    (silent : (checkGiven callee given bound span).Silent env s) :
    ∀ i < given.length, bound.any (·.contains i) = true := by
  obtain ⟨-, ⟨placed, -⟩, -⟩ := checkGiven_demands.silent_iff.mp silent
  have all := (placed_iff single).mp placed
  rwa [List.length_map] at all

end Gradual.Check
