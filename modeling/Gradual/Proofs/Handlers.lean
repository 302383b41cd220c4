import Gradual.Proofs.JoinedClasses
import Gradual.Proofs.Narrowing
import Gradual.Proofs.NamedTargets

/-!
What handlers catch. A handler for several classes catches the join of their instances. It is accepted exactly if
all of them are exceptions, but the join need not be one: it is of the first class that they have in common, and
that can be a base of them that is not an exception.
-/

namespace Gradual

open Check

/-! ### The class of all exceptions -/

/-- The program has a class of all exceptions, which is not the one of all objects. -/
structure Program.HasExceptions (p : Program) (b : ClassId) : Prop where
  found : p.lookup "builtins.BaseException" = .ok (.cls b)
  inside : b < p.classes.size
  below : p.classes.basic.object ≠ some b

/-- An instance of the class of all exceptions. -/
def Ty.exception (b : ClassId) : Ty := .inst b "builtins.BaseException" []

/-- The parts of a string between points, if they are found in so many steps. -/
def splitWithin (s : String) : (steps : Nat) → (start here : String.Pos.Raw) → (parts : List String) →
    Option (List String)
  | 0, _, _, _ => none
  | steps + 1, start, here, parts =>
    if here.atEnd s then some (start.extract s here :: parts).reverse
    else if here.get s == '.' then
      let next := here.next s
      splitWithin s steps next next (start.extract s (next.unoffsetBy (String.Pos.Raw.next "." 0)) :: parts)
    else splitWithin s steps start (here.next s) parts

theorem splitOnAux_of_splitWithin {s : String} {steps : Nat} {start here : String.Pos.Raw}
    {parts found : List String} (split : splitWithin s steps start here parts = some found) :
    s.splitOnAux "." start here 0 parts = found := by
  have point : String.Pos.Raw.get "." 0 = '.' := by decide +kernel
  have single : String.Pos.Raw.atEnd "." (String.Pos.Raw.next "." 0) = true := by decide +kernel
  induction steps generalizing start here parts with
  | zero => cases split
  | succ steps ih =>
    rw [String.splitOnAux.eq_1]
    unfold splitWithin at split
    split at split
    · rw [if_pos ‹_›]
      exact Option.some.inj split
    · rw [if_neg ‹_›, point]
      split at split
      · rw [if_pos ‹_›]
        dsimp only
        rw [if_pos single]
        exact ih split
      · rw [if_neg ‹_›]
        exact ih split

theorem splitOn_exception : "builtins.BaseException".splitOn "." = ["builtins", "BaseException"] := by
  have found : splitWithin "builtins.BaseException" 23 0 0 [] = some ["builtins", "BaseException"] := by
    decide +kernel
  exact splitOnAux_of_splitWithin found

/-- The class that a symbol is. -/
def Symbol.class? : Symbol → Option ClassId
  | .cls c => some c
  | _ => none

/-- A class that the language provides is found by its full name. -/
theorem Program.lookup_provided {p : Program} {c : ClassId} {fullName name : String}
    (parts : fullName.splitOn "." = ["builtins", name])
    (provided : ((p.modules["builtins"]?).bind (·.names[name]?)).bind (·.symbol.class?) = some c) :
    p.lookup fullName = .ok (.cls c) := by
  obtain ⟨⟨_, symbol⟩, bound, known⟩ := Option.bind_eq_some_iff.mp provided
  obtain ⟨m, provided, bound⟩ := Option.bind_eq_some_iff.mp bound
  have whole : ".".intercalate ["builtins"] = "builtins" := by decide +kernel
  unfold lookup
  rw [parts]
  simp only [properSplits, List.map_nil, List.nil_append, List.findSome?_cons, whole, provided, Option.map_some]
  simp only [follow, bound]
  cases symbol <;> cases known
  rfl

theorem Program.lookup_exception {p : Program} {c : ClassId}
    (provided : ((p.modules["builtins"]?).bind (·.names["BaseException"]?)).bind (·.symbol.class?) = some c) :
    p.lookup "builtins.BaseException" = .ok (.cls c) := lookup_provided splitOn_exception provided

/-! ### What handlers catch -/

/-- What a handler catches: the instances of a class, or those of several classes, which are joined. -/
inductive Caught where
  | cls (c : ClassId)
  | join (l r : Caught)

namespace Caught

/-- The type that the variable of the handler gets. -/
def type (env : Env) : Caught → Ty
  | cls c => (env.selfInstance c).toTy
  | join l r => env.order.join (l.type env) (r.type env)

def classes : Caught → List ClassId
  | cls c => [c]
  | join l r => l.classes ++ r.classes

/-- Wherever the handler joins, the two sides meet below `b`. -/
def Meets (env : Env) (b : ClassId) : Caught → Prop
  | cls _ => True
  | join l r => l.Meets env b ∧ r.Meets env b ∧ env.order.MeetBelow b (l.type env) (r.type env)

end Caught

mutual

/-- What a handler catches that is made of names of classes and of tuples of such, in parentheses or not. The
items of a tuple are joined from left to right. -/
def Expr.catches? : Expr → Option Caught
  | ⟨_, _, kind⟩ => kind.catches?

def ExprKind.catches? : ExprKind → Option Caught
  | .paren inner => inner.catches?
  | .name ref =>
    match ref.symbol with
    | .cls c => some (.cls c)
    | _ => none
  | .tuple items =>
    match catchesEach? items with
    | some (first :: rest) => some (rest.foldl .join first)
    | _ => none
  | _ => none

def catchesEach? : List Expr → Option (List Caught)
  | [] => some []
  | e :: rest => return (← e.catches?) :: (← catchesEach? rest)

end

/-- Values of the class can be made, and they are exceptions. -/
structure Env.Raises (env : Env) (b c : ClassId) : Prop where
  constructed : (env.typeObject c).signatures ≠ []
  below : env.order.isSubtype (env.selfInstance c).toTy (.exception b) = true

variable {env : Env} {s : State} {b c : ClassId}

/-! ### Joins of exceptions -/

namespace Caught

variable {first : Caught} {rest : List Caught}

theorem type_foldl :
    (rest.foldl join first).type env = (rest.map (type env)).foldl env.order.join (first.type env) := by
  rw [List.foldl_map]
  induction rest generalizing first with
  | nil => rfl
  | cons h rest ih => exact ih

theorem forall_classes_foldl {P : ClassId → Prop} :
    (∀ c ∈ (rest.foldl join first).classes, P c) ↔ ∀ h ∈ first :: rest, ∀ c ∈ h.classes, P c := by
  induction rest generalizing first with
  | nil => rw [List.forall_mem_singleton, List.foldl_nil]
  | cons h rest ih =>
    rw [List.foldl_cons, ih, List.forall_mem_cons, List.forall_mem_cons, List.forall_mem_cons, classes,
      List.forall_mem_append, and_assoc]

/-- Joins of exceptions are instances, and exceptions exactly if they meet there. -/
theorem type_below_iff {h : Caught} (rooted : env.classes.Rooted) (order : env.order = .ofClasses env.classes)
    (exceptions : env.program.HasExceptions b) (raises : ∀ c ∈ h.classes, env.Raises b c) :
    (h.type env).IsInstance env.classes ∧ (env.order.isSubtype (h.type env) (.exception b) = true ↔ h.Meets env b) := by
  induction h with
  | cls c =>
    have fits := (raises c (List.mem_singleton_self c)).below
    refine ⟨⟨env.selfInstance c, rfl, ?_⟩, iff_of_true fits True.intro⟩
    rw [order] at fits
    obtain ⟨view, seen, -⟩ := (rooted.decides.inst_le_iff (j := ⟨b, "builtins.BaseException", []⟩)).mp fits
    rcases ClassTable.derives_of_view? seen with same | derived
    · exact same ▸ exceptions.inside
    · exact ClassTable.lt_size_of_derives derived
  | join l r ihl ihr =>
    obtain ⟨left, right⟩ := List.forall_mem_append.mp raises
    obtain ⟨hl, fitsl⟩ := ihl left
    obtain ⟨hr, fitsr⟩ := ihr right
    obtain ⟨joined, fits⟩ := rooted.join_below_iff exceptions.below (n := "builtins.BaseException") hl hr
    rw [Meets, ← fitsl, ← fitsr, type, order]
    refine ⟨joined, fits.trans ⟨fun meet => ?_, fun all => all.2.2⟩⟩
    obtain ⟨belowl, belowr⟩ := rooted.below_of_meetBelow hl hr meet
    exact ⟨belowl, belowr, meet⟩

end Caught

/-! ### Parentheses and items -/

theorem Expr.catches?_unwrapped (e : Expr) : e.catches? = e.unwrapped.kind.catches? := by
  induction e using paren_induction with
  | bare e same =>
    rw [same]
    cases e
    rfl
  | paren id span inner ih => exact ih

theorem Expr.caught_unwrapped (e : Expr) : e.caught = e.unwrapped.kind.caught e := by
  have inside (inner outer : Expr) : inner.kind.caught outer = inner.unwrapped.kind.caught outer := by
    induction inner using paren_induction with
    | bare inner same => rw [same]
    | paren id span inner ih =>
      obtain ⟨_, _, kind⟩ := inner
      exact ih
  obtain ⟨id, span, kind⟩ := e
  exact inside ⟨id, span, kind⟩ ⟨id, span, kind⟩

theorem Expr.sizeOf_unwrapped_le (e : Expr) : sizeOf e.unwrapped ≤ sizeOf e := by
  induction e using paren_induction with
  | bare e same => exact Nat.le_of_eq (congrArg sizeOf same)
  | paren id span inner ih =>
    refine Nat.le_trans ih ?_
    rw [Expr.mk.sizeOf_spec, ExprKind.paren.sizeOf_spec]
    omega

theorem Expr.unwrapped_ne_paren (e inner : Expr) : e.unwrapped.kind ≠ .paren inner := by
  induction e using paren_induction with
  | bare e same =>
    intro paren
    obtain ⟨id, span, kind⟩ := e
    rw [same] at paren
    obtain rfl : kind = .paren inner := paren
    have inside : inner.unwrapped = ⟨id, span, .paren inner⟩ := same
    have size := inner.sizeOf_unwrapped_le
    rw [inside, Expr.mk.sizeOf_spec, ExprKind.paren.sizeOf_spec] at size
    omega
  | paren id span _ ih => exact ih

/-- What holds of an expression if it holds of the items of the tuple that it may be holds of all. -/
theorem Expr.items_induction {motive : Expr → Prop}
    (step : ∀ e : Expr, (∀ items, e.unwrapped.kind = .tuple items → ∀ x ∈ items, motive x) → motive e) (e : Expr) :
    motive e := by
  induction size : sizeOf e using Nat.strongRecOn generalizing e with
  | ind n ih =>
    refine step e fun items tuple x member => ih (sizeOf x) ?_ x rfl
    have whole := e.sizeOf_unwrapped_le
    have item := List.sizeOf_lt_of_mem member
    generalize e.unwrapped = inner at tuple whole
    obtain ⟨id, span, kind⟩ := inner
    obtain rfl : kind = .tuple items := tuple
    rw [Expr.mk.sizeOf_spec, ExprKind.tuple.sizeOf_spec] at whole
    omega

/-! ### One class -/

namespace Check

theorem named_exception (found : env.program.lookup "builtins.BaseException" = .ok (.cls b)) :
    (named "builtins.BaseException" []).Clean env s (.exception b) s := by
  intro ds
  have dotted : "builtins.BaseException".contains '.' = true := by simp
  have resolved : resolve? env { s with diagnostics := ds } "builtins.BaseException" = some (.cls b) := by
    rw [resolve?, if_pos dotted, found]
    rfl
  unfold named
  rw [outcome_bind, outcome_read, outcome_bind, outcome_get]
  dsimp only
  rw [resolved]
  rfl

/-- What is caught by a class that has been inferred. -/
def caughtFrom (type : Ty) (span : Span) : Check Ty := do
  if type.isDynamic then return .any
  let base ← named "builtins.BaseException" []
  if let some s := type.signatures.head? then
    if s.isTypeObject && (← isSubtype s.ret base) then return s.ret
  report .invalidException span
  return .any

/-- A class catches its instances, if they are exceptions. -/
theorem caughtFrom_demands {type made : Ty} {span : Span} (fixed : type.isDynamic = false)
    (found : env.program.lookup "builtins.BaseException" = .ok (.cls b))
    (constructs : ∀ s ∈ type.signatures, s.ret = made ∧ s.isTypeObject = true) :
    Demands (caughtFrom type span) env s
      (type.signatures ≠ [] ∧ env.order.isSubtype made (.exception b) = true) made := by
  have refused : ¬ (do report .invalidException span; return Ty.any : Check Ty).Silent env s :=
    (Demands.report.bind (fun _ => .pure) fun _ => .done).fails fun both => both.1
  unfold caughtFrom
  rw [if_neg (Bool.eq_false_iff.mp fixed)]
  refine .after (named_exception found) ?_
  cases signatures : type.signatures with
  | nil => exact ⟨fun both => absurd rfl both.1, fun _ => refused⟩
  | cons s rest =>
    obtain ⟨rfl, isTypeObject⟩ := constructs s (signatures ▸ List.mem_cons_self)
    refine Demands.after (fun _ => rfl) ?_
    dsimp only
    rw [isTypeObject, Bool.true_and]
    cases fits : env.order.isSubtype s.ret (.exception b) with
    | true => exact Demands.pure.congr (iff_of_true True.intro ⟨List.cons_ne_nil _ _, rfl⟩)
    | false => exact ⟨fun both => absurd both.2 Bool.false_ne_true, fun _ => refused⟩

end Check

/-- The answer for an expression of the type in the code of the state. -/
def State.answer (s : State) (type : Ty) : Ty := if s.isDynamic then .any else type

theorem typeObject_fixed : (env.typeObject c).isDynamic = false := by
  unfold Env.typeObject
  extract_lets constructor
  split <;> rfl

/-- What a handler does in the state: it refuses classes without exceptions, in code that is not dynamic, and
otherwise answers what it catches. -/
structure Handles (env : Env) (s : State) (b : ClassId) (x : Check Ty) (h : Caught) : Prop where
  silent_iff : x.Silent env s ↔ s.isDynamic = true ∨ ∀ c ∈ h.classes, env.Raises b c
  clean : x.Silent env s → ∃ types, x.Clean env s (s.answer (h.type env)) { s with types }

theorem handles_class {e : Expr} {ref : NameRef} (name : e.unwrapped.kind = .name ref) (symbol : ref.symbol = .cls c)
    (found : env.program.lookup "builtins.BaseException" = .ok (.cls b)) :
    Handles env s b (caughtByClass e) (.cls c) := by
  have known : ref.type? env s = some (env.typeObject c) := by rw [NameRef.type?, symbol]
  obtain ⟨types, accepted⟩ := e.accept_name_clean name known none
  have demands : Demands (caughtFrom (env.typeObject c) e.span) env { s with types } (env.Raises b c)
      (env.selfInstance c).toTy :=
    (caughtFrom_demands typeObject_fixed found fun _ => Env.of_mem_typeObject).congr
      ⟨fun both => ⟨both.1, both.2⟩, fun raises => ⟨raises.constructed, raises.below⟩⟩
  have one : (∀ d ∈ (Caught.cls c).classes, env.Raises b d) ↔ env.Raises b c := List.forall_mem_singleton
  cases dynamic : s.isDynamic with
  | true =>
    rw [dynamic] at accepted
    have clean : (caughtByClass e).Clean env s (s.answer (Caught.type env (.cls c))) { s with types } := by
      rw [State.answer, dynamic]
      exact accepted.bind fun _ => rfl
    exact ⟨iff_of_true clean.silent (.inl dynamic), fun _ => ⟨types, clean⟩⟩
  | false =>
    rw [dynamic] at accepted
    have split : (caughtByClass e).Silent env s ↔ env.Raises b c := accepted.silent_bind.trans demands.silent_iff
    refine ⟨?_, fun silent => ⟨types, ?_⟩⟩
    · rw [split, one, dynamic]
      exact (or_iff_right Bool.false_ne_true).symm
    · rw [State.answer, dynamic]
      exact accepted.bind (demands.holds (split.mp silent))

/-! ### Tuples of classes -/

theorem State.answer_join {t u : Ty} (s : State) (o : TypeOrder) :
    o.join (s.answer t) (s.answer u) = s.answer (o.join t u) := by
  unfold State.answer
  cases s.isDynamic with
  | true => exact TypeOrder.join_any
  | false => rfl

namespace Check

theorem foldlM_join_clean {t : Ty} {us : List Ty} :
    ((us.map s.answer).foldlM join (s.answer t)).Clean env s (s.answer (us.foldl env.order.join t)) s := by
  induction us generalizing t with
  | nil => exact .pure
  | cons u us ih =>
    rw [List.map_cons, List.foldlM_cons, List.foldl_cons]
    refine Clean.bind (a := s.answer (env.order.join t u)) (fun ds => ?_) ih
    exact congrArg (·, { s with diagnostics := ds }) (s.answer_join env.order)

theorem recordedEach_clean {items : List Expr} : (items.mapM fun item => recorded item.id).Clean env s
    (items.map fun item => (s.types[item.id]?).getD .any) s := by
  induction items with
  | nil => exact .pure
  | cons item items ih =>
    rw [List.mapM_cons]
    exact Clean.bind (fun _ => rfl) (ih.bind .pure)

theorem store_clean {node : NodeId} {type : Ty} :
    (store node type).Clean env s () { s with types := s.types.insert node type } := fun _ => rfl

/-- Behind the items of a tuple nothing is reported. -/
theorem caughtByTuple_clean {e : Expr} {items : List Expr} {t : Ty} {ts : List Ty} {caught : Check (List Ty)}
    {types : TypeMap} (given : ¬ items.isEmpty = true)
    (each : caught.Clean env s ((t :: ts).map s.answer) { s with types }) :
    ∃ types', (caughtByTuple e items caught).Clean env s (s.answer (ts.foldl env.order.join t))
      { s with types := types' } := by
  unfold caughtByTuple
  rw [if_neg given]
  let recorded : List Ty := items.map fun item => (types[item.id]?).getD .any
  let st : State := { s with types := types.insert e.id (.tuple recorded) }
  have joined : ((ts.map s.answer).foldlM join (s.answer t)).Clean env st (s.answer (ts.foldl env.order.join t)) st :=
    foldlM_join_clean (s := st) (t := t)
  exact ⟨_, each.bind (recordedEach_clean.bind (store_clean.bind joined))⟩

end Check

/-- What handlers do one after the other. -/
structure HandlesEach (env : Env) (s : State) (b : ClassId) (x : Check (List Ty)) (hs : List Caught) : Prop where
  silent_iff : x.Silent env s ↔ s.isDynamic = true ∨ ∀ h ∈ hs, ∀ c ∈ h.classes, env.Raises b c
  clean : x.Silent env s → ∃ types, x.Clean env s ((hs.map (Caught.type env)).map s.answer) { s with types }

section Items

variable {items : List Expr} (each : ∀ x ∈ items, ∀ (s : State) (h : Caught), x.catches? = some h →
  Handles env s b x.caught h)
include each

theorem handlesEach {hs : List Caught} (catches : catchesEach? items = some hs) :
    HandlesEach env s b (caughtByEach items) hs := by
  induction items generalizing s hs with
  | nil =>
    cases catches
    have clean : (caughtByEach []).Clean env s [] s := .pure
    exact ⟨iff_of_true clean.silent (.inr (List.forall_mem_nil _)), fun _ => ⟨s.types, clean⟩⟩
  | cons e rest ih =>
    obtain ⟨first, others⟩ := List.forall_mem_cons.mp each
    simp only [catchesEach?, Option.bind_eq_bind, Option.bind_eq_some_iff] at catches
    obtain ⟨h, one, hs, more, same⟩ := catches
    cases same
    have later (type : Ty) : Keeps Effects.anything (do return type :: (← caughtByEach rest)) :=
      (caughtByEach_keeps rest fun x _ => x.within_anything x x.self_mem_all).seq fun _ => .done
    have head := first s h one
    have tail (types : TypeMap) : HandlesEach env { s with types } b (caughtByEach rest) hs := ih others more
    have clean (silent : e.caught.Silent env s) (silent' : ∀ types, (caughtByEach rest).Silent env { s with types }) :
        ∃ types, (caughtByEach (e :: rest)).Clean env s (((h :: hs).map (Caught.type env)).map s.answer)
          { s with types } := by
      obtain ⟨types, found⟩ := head.clean silent
      obtain ⟨types', foundEach⟩ := (tail types).clean (silent' types)
      exact ⟨types', found.bind (foundEach.bind .pure)⟩
    have split : (caughtByEach (e :: rest)).Silent env s →
        e.caught.Silent env s ∧ ∀ types, (caughtByEach rest).Silent env { s with types } := by
      intro silent
      unfold caughtByEach at silent
      have silent₁ := silent.first later
      obtain ⟨types, found⟩ := head.clean silent₁
      rw [found.silent_bind] at silent
      have silent₂ : (caughtByEach rest).Silent env { s with types } := silent.first (w := .anything) fun _ => .done
      exact ⟨silent₁, fun other => (tail other).silent_iff.mpr ((tail types).silent_iff.mp silent₂)⟩
    refine ⟨?_, fun silent => clean (split silent).1 (split silent).2⟩
    rw [List.forall_mem_cons, or_and_left, ← head.silent_iff]
    constructor
    · exact fun silent => ⟨(split silent).1, (tail s.types).silent_iff.mp ((split silent).2 s.types)⟩
    · rintro ⟨silent, fine⟩
      obtain ⟨types, found⟩ := clean silent fun types => (tail types).silent_iff.mpr fine
      exact found.silent

theorem handles_tuple {e : Expr} {h : Caught} {hs : List Caught} (catches : catchesEach? items = some (h :: hs)) :
    Handles env s b (caughtByTuple e items (caughtByEach items)) (hs.foldl .join h) := by
  have given : ¬ items.isEmpty = true := by
    intro empty
    rw [List.isEmpty_iff.mp empty] at catches
    cases catches
  have inside : HandlesEach env s b (caughtByEach items) (h :: hs) := handlesEach each catches
  have split : (caughtByTuple e items (caughtByEach items)).Silent env s → (caughtByEach items).Silent env s := by
    intro silent
    unfold caughtByTuple at silent
    rw [if_neg given] at silent
    exact silent.first (joinCaught_keeps (w := .anything) True.intro)
  have clean (silent : (caughtByEach items).Silent env s) : ∃ types,
      (caughtByTuple e items (caughtByEach items)).Clean env s (s.answer ((hs.foldl .join h).type env))
        { s with types } := by
    obtain ⟨types, found⟩ := inside.clean silent
    rw [Caught.type_foldl]
    exact caughtByTuple_clean given found
  refine ⟨?_, fun silent => clean (split silent)⟩
  rw [Caught.forall_classes_foldl, ← inside.silent_iff]
  refine ⟨split, fun silent => ?_⟩
  obtain ⟨types, found⟩ := clean silent
  exact found.silent

end Items

theorem Expr.handles (found : env.program.lookup "builtins.BaseException" = .ok (.cls b)) (e : Expr) :
    ∀ (s : State) (h : Caught), e.catches? = some h → Handles env s b e.caught h := by
  induction e using items_induction with
  | step e ih =>
    intro s h catches
    rw [e.catches?_unwrapped] at catches
    have caught := e.caught_unwrapped
    cases kind : e.unwrapped.kind with
    | name ref =>
      rw [kind] at catches caught
      have own : e.caught = caughtByClass e := caught
      cases symbol : ref.symbol with
      | cls c =>
        simp only [ExprKind.catches?, symbol] at catches
        cases catches
        exact own ▸ handles_class kind symbol found
      | _ => simp [ExprKind.catches?, symbol] at catches
    | tuple items =>
      rw [kind] at catches caught
      have own : e.caught = caughtByTuple e items (caughtByEach items) := caught
      have each := ih items kind
      simp only [ExprKind.catches?] at catches
      split at catches
      · rename_i first rest known
        cases catches
        exact own ▸ handles_tuple each known
      · cases catches
    | paren inner => exact absurd kind (e.unwrapped_ne_paren inner)
    | _ =>
      rw [kind] at catches
      cases catches

end Gradual
