import Gradual.Builder
import Mathlib.Data.String.Basic

/-!
What a dotted name refers to. Its parts before some point are the dotted name of a module, and the parts
behind it lead from that module through the modules that they are bound to. The lookup starts at the
longest name of a module that it can, so it goes wrong only where a longer one is in its way.
-/

namespace Gradual

/-! ### The parts of a dotted name -/

/-- A name without a point. -/
def IsPlainName (name : String) : Prop := '.' ∉ name.toList

/-- A point alone separates as a test for points does. -/
theorem splitOnAux_point (s : String) (start here : String.Pos.Raw) (parts : List String) :
    s.splitOnAux "." start here 0 parts = s.splitAux (· == '.') start here parts := by
  have point : String.Pos.Raw.get "." 0 = '.' := by decide +kernel
  have single : String.Pos.Raw.atEnd "." (String.Pos.Raw.next "." 0) = true := by decide +kernel
  fun_induction String.splitAux with
  | case1 start here parts atEnd =>
    rw [String.splitOnAux.eq_1, if_pos atEnd]
  | case2 start here parts inside _ found next ih =>
    have back : next.unoffsetBy (String.Pos.Raw.next "." 0) = here := by
      have width : (String.Pos.Raw.next "." 0).byteIdx = 1 := by decide +kernel
      have dot : String.Pos.Raw.get s here = '.' := by simpa using found
      have behind : next.byteIdx = here.byteIdx + 1 := by
        have step : next = here + String.Pos.Raw.get s here := rfl
        rw [step, dot, String.Pos.Raw.byteIdx_add_char]
        rfl
      rw [String.Pos.Raw.unoffsetBy, width, behind, Nat.add_sub_cancel]
    rw [String.splitOnAux.eq_1, if_neg inside, point, if_pos found]
    dsimp only
    rw [if_pos single, back]
    exact ih
  | case3 start here parts inside _ other ih =>
    rw [String.splitOnAux.eq_1, if_neg inside, point, if_neg other]
    exact ih

theorem splitOn_point (s : String) :
    s.splitOn "." = (s.toList.splitOn '.').map String.ofList := by
  have whole : s.splitOn "." = s.splitToList (· == '.') := by
    rw [String.splitOn, if_neg (by decide), splitOnAux_point]
    rfl
  rw [whole, String.splitToList_of_valid]
  rfl

theorem intercalate_splitOn_point (s : String) : ".".intercalate (s.splitOn ".") = s := by
  apply String.toList_injective
  rw [String.toList_intercalate, splitOn_point, List.map_map]
  have kept : (String.toList ∘ String.ofList) = id := funext fun _ => String.toList_ofList
  rw [kept, List.map_id]
  exact List.intercalate_splitOn '.'

/-- Plain names behind any name are parts of their own. -/
theorem splitOn_intercalate_cons {m : String} {names : List String} (nonempty : names ≠ [])
    (plain : ∀ n ∈ names, IsPlainName n) :
    (".".intercalate (m :: names)).splitOn "." = m.splitOn "." ++ names := by
  have lists : ∀ n ∈ names.map String.toList, '.' ∉ n := List.forall_mem_map.mpr plain
  have parts : (".".intercalate names).toList.splitOn '.' = names.map String.toList := by
    rw [String.toList_intercalate]
    exact List.splitOn_intercalate '.' lists (by simpa using nonempty)
  have text : (".".intercalate (m :: names)).toList =
      m.toList ++ '.' :: (".".intercalate names).toList := by
    rw [String.intercalate_cons_of_ne_nil nonempty, String.toList_append, String.toList_append,
      List.append_assoc]
    rfl
  rw [splitOn_point, text, List.splitOn_append_cons_self, parts, splitOn_point, List.map_append,
    List.map_map]
  have kept : (String.ofList ∘ String.toList) = id := funext fun _ => String.ofList_toList
  rw [kept, List.map_id]

/-! ### Where the lookup starts -/

section Splits

variable {α β : Type} {f : List α × List α → Option β} {xs ys : List α} {b : β}

theorem mem_properSplits {zs : List α} {p : List α × List α} (member : p ∈ properSplits zs) :
    p.1 ≠ [] ∧ p.2 ≠ [] ∧ p.1 ++ p.2 = zs := by
  induction zs generalizing p with
  | nil => cases member
  | cons z zs ih =>
    cases zs with
    | nil => cases member
    | cons y ys =>
      rw [properSplits.eq_def] at member
      rcases List.mem_append.mp member with longer | last
      · obtain ⟨q, split, rfl⟩ := List.mem_map.mp longer
        obtain ⟨-, rest, whole⟩ := ih split
        exact ⟨List.cons_ne_nil _ _, rest, congrArg (z :: ·) whole⟩
      · obtain rfl := List.mem_singleton.mp last
        exact ⟨List.cons_ne_nil _ _, List.cons_ne_nil _ _, rfl⟩

theorem properSplits_cons (x : α) (rest : xs ≠ []) :
    properSplits (x :: xs) = (properSplits xs).map (fun p => (x :: p.1, p.2)) ++ [([x], xs)] := by
  cases xs with
  | nil => exact absurd rfl rest
  | cons => rfl

/-- A search through the splits that finds nothing for longer first parts finds what there is for the
first part. -/
theorem findSome?_properSplits (first : xs ≠ []) (rest : ys ≠ [])
    (longer : ∀ c d, c ≠ [] → d ≠ [] → c ++ d = ys → f (xs ++ c, d) = none)
    (found : f (xs, ys) = some b) : (properSplits (xs ++ ys)).findSome? f = some b := by
  induction xs generalizing f with
  | nil => exact absurd rfl first
  | cons x xs ih =>
    cases xs with
    | nil =>
      have none : ((properSplits ys).map fun p => (x :: p.1, p.2)).findSome? f = none := by
        rw [List.findSome?_eq_none_iff, List.forall_mem_map]
        intro p split
        obtain ⟨c, d, whole⟩ := mem_properSplits split
        exact longer p.1 p.2 c d whole
      rw [List.singleton_append, properSplits_cons x rest, List.findSome?_append, none, Option.none_or,
        List.findSome?_singleton, found]
    | cons y zs =>
      have later := ih (f := fun p => f (x :: p.1, p.2)) (List.cons_ne_nil _ _) longer found
      have deeper :
          ((properSplits (y :: zs ++ ys)).map fun p => (x :: p.1, p.2)).findSome? f = some b := by
        rw [List.findSome?_map]
        exact later
      rw [List.cons_append, properSplits_cons x (by simp), List.findSome?_append, deeper, Option.some_or]

end Splits

/-! ### Names that lead through modules -/

namespace Program

variable {p : Program} {m : String} {names : List String} {s : Symbol}

/-- From a module the names lead to a symbol: each but the last is bound to the module in which the next
one is looked up. -/
inductive Leads (p : Program) : String → List String → Symbol → Prop
  | bound {m n : String} {module : Module} {entry : Entry} :
    p.modules[m]? = some module → module.names[n]? = some entry → Leads p m [n] entry.symbol
  | through {m n next : String} {module : Module} {entry : Entry} {names : List String} {s : Symbol} :
    p.modules[m]? = some module → module.names[n]? = some entry → entry.symbol = .module next →
    Leads p next names s → Leads p m (n :: names) s

theorem Leads.exists_module (leads : p.Leads m names s) :
    names ≠ [] ∧ ∃ module, p.modules[m]? = some module := by
  cases leads with
  | bound known => exact ⟨List.cons_ne_nil _ _, _, known⟩
  | through known => exact ⟨List.cons_ne_nil _ _, _, known⟩

theorem follow_of_leads (leads : p.Leads m names s) {module : Module}
    (known : p.modules[m]? = some module) (seen : List String) :
    p.follow module seen names = .ok s := by
  induction leads generalizing module seen with
  | bound found own =>
    cases known.symm.trans found
    rw [follow, own]
    rfl
  | @through m n next module' entry names s found own onward rest ih =>
    cases known.symm.trans found
    obtain ⟨nonempty, target, there⟩ := rest.exists_module
    obtain ⟨first, others, rfl⟩ := List.exists_cons_of_ne_nil nonempty
    obtain ⟨binding, symbol⟩ := entry
    cases onward
    have entered : p.module? next = .ok target := by rw [module?, there]
    have on : p.follow module' seen (n :: first :: others) =
        (p.module? next).bind fun target => p.follow target (seen ++ [n]) (first :: others) := by
      rw [follow, own]
      rfl
    rw [on, entered]
    exact ih there (seen ++ [n])

/-- The lookup follows the names from a module unless a longer part of the whole name is a module
too. -/
theorem lookup_of_unshadowed (leads : p.Leads m names s) (plain : ∀ n ∈ names, IsPlainName n)
    (longest : ∀ c d, c ≠ [] → d ≠ [] → c ++ d = names →
      p.modules[".".intercalate (m :: c)]? = none) :
    p.lookup (".".intercalate (m :: names)) = .ok s := by
  obtain ⟨nonempty, module, known⟩ := leads.exists_module
  have parts : m.splitOn "." ≠ [] := by
    rw [splitOn_point]
    simp
  unfold lookup
  rw [splitOn_intercalate_cons nonempty plain]
  dsimp only
  rw [findSome?_properSplits (b := (module, m.splitOn ".", names)) parts nonempty]
  · exact follow_of_leads leads known _
  · intro c d first rest whole
    have joined : ".".intercalate (m.splitOn "." ++ c) = ".".intercalate (m :: c) := by
      rw [String.intercalate_append_of_ne_nil parts first, intercalate_splitOn_point,
        String.intercalate_cons_of_ne_nil first]
    simp only [joined, longest c d first rest whole, Option.map_none]
  · simp only [intercalate_splitOn_point, known, Option.map_some]

end Program

/-! ### Names that are bound one after the other -/

namespace Builder

/-- A step in which a builder goes to a module or names something there. -/
inductive NameStep where
  | enter (module : String)
  | define (name : String) (symbol : Symbol)

def NameStep.action : NameStep → Build Unit
  | .enter module => enterModule module
  | .define name symbol => Builder.define name symbol

/-- What a module binds a name to behind some steps, if they bind it; the last step counts. -/
def lastBound (m n : String) : (current : String) → List NameStep → Option Symbol
  | _, [] => none
  | _, .enter module :: rest => lastBound m n module rest
  | current, .define name symbol :: rest =>
    (lastBound m n current rest).or (if current = m ∧ name = n then some symbol else none)

def named (b : Builder) (steps : List NameStep) : Builder :=
  steps.foldl (fun b step => (step.action.run b).2) b

/-- What a module binds a name to. -/
def symbol? (b : Builder) (m n : String) : Option Symbol :=
  (b.modules[m]?.bind (·.names[n]?)).map (·.symbol)

variable {b : Builder} {m n : String}

theorem exists_entry_of_symbol? {s : Symbol} (bound : b.symbol? m n = some s) :
    ∃ module entry, b.modules[m]? = some module ∧ module.names[n]? = some entry ∧ entry.symbol = s := by
  obtain ⟨entry, found, same⟩ := Option.map_eq_some_iff.mp bound
  obtain ⟨module, known, own⟩ := Option.bind_eq_some_iff.mp found
  exact ⟨module, entry, known, own, same⟩

theorem modules_enterModule (b : Builder) (module : String) :
    ((enterModule module).run b).2.modules =
      if b.modules.contains module then b.modules
      else b.modules.insert module ⟨module, "/".intercalate (module.splitOn ".") ++ ".py", [], ∅⟩ := rfl

theorem modules_define (b : Builder) (name : String) (symbol : Symbol) :
    ((define name symbol).run b).2.modules =
      b.modules.modify b.current fun module =>
        { module with names := module.names.insert name ⟨.inModule, symbol⟩ } := rfl

/-- A new module binds nothing. -/
theorem symbol?_enterModule (module : String) :
    ((enterModule module).run b).2.symbol? m n = b.symbol? m n := by
  rw [symbol?, modules_enterModule, symbol?]
  split
  · rfl
  · rename_i unknown
    rw [Std.TreeMap.getElem?_insert]
    split
    · rename_i same
      obtain rfl : module = m := Std.LawfulEqCmp.eq_of_compare same
      rw [Std.TreeMap.getElem?_eq_none (by simpa using unknown)]
      rfl
    · rfl

theorem contains_enterModule (module : String) :
    ((enterModule module).run b).2.modules.contains module = true := by
  rw [modules_enterModule]
  split
  · assumption
  · exact Std.TreeMap.contains_insert_self

theorem symbol?_define (current : b.modules.contains b.current = true) (name : String)
    (symbol : Symbol) :
    ((define name symbol).run b).2.symbol? m n =
      if b.current = m ∧ name = n then some symbol else b.symbol? m n := by
  rw [Std.TreeMap.contains_eq_isSome_getElem?] at current
  obtain ⟨module, known⟩ := Option.isSome_iff_exists.mp current
  rw [symbol?, modules_define, Std.TreeMap.getElem?_modify, symbol?]
  by_cases here : b.current = m
  · rw [← here, if_pos Std.ReflCmp.compare_self, known, Option.map_some, Option.bind_some,
      Std.TreeMap.getElem?_insert, Option.bind_some]
    by_cases same : name = n
    · rw [same, if_pos Std.ReflCmp.compare_self, if_pos ⟨rfl, rfl⟩]
      rfl
    · rw [if_neg (mt Std.LawfulEqCmp.eq_of_compare same), if_neg (mt And.right same)]
  · rw [if_neg (mt Std.LawfulEqCmp.eq_of_compare here), if_neg (mt And.left here)]

theorem contains_define (current : b.modules.contains b.current = true) (name : String)
    (symbol : Symbol) :
    ((define name symbol).run b).2.modules.contains b.current = true := by
  rw [modules_define, Std.TreeMap.contains_modify]
  exact current

/-- Behind some steps a module binds a name to what the last of them that names it binds it to. -/
theorem symbol?_named (current : b.modules.contains b.current = true) (steps : List NameStep) :
    (b.named steps).symbol? m n = (lastBound m n b.current steps).or (b.symbol? m n) := by
  induction steps generalizing b with
  | nil => exact Option.none_or.symm
  | cons step rest ih =>
    cases step with
    | enter module =>
      have later : ((((enterModule module).run b).2).named rest).symbol? m n = _ :=
        ih (contains_enterModule module)
      rw [symbol?_enterModule] at later
      exact later
    | define name symbol =>
      have later : ((((define name symbol).run b).2).named rest).symbol? m n = _ :=
        ih (contains_define current name symbol)
      rw [symbol?_define current] at later
      refine later.trans ?_
      have same : ((define name symbol).run b).2.current = b.current := rfl
      rw [Builder.lastBound, same, Option.or_assoc]
      congr 1
      split <;> rfl

end Builder

/-- A dotted name of a module and a plain name behind it refer to what the module binds the name to,
whatever other modules there are. A module and several names lead where the names are bound, as long
as no longer part of the whole is the name of a module. And a builder binds names in a module so that
they refer to what they were bound to last. -/
theorem qualified_names_found :
    (∀ (p : Program) (m n : String) (module : Module) (entry : Entry), p.modules[m]? = some module →
      module.names[n]? = some entry → IsPlainName n → p.lookup (m ++ "." ++ n) = .ok entry.symbol) ∧
    (∀ (p : Program) (m : String) (names : List String) (s : Symbol), p.Leads m names s →
      (∀ n ∈ names, IsPlainName n) →
      (∀ q rest, ".".intercalate (m :: names) = q ++ "." ++ rest → m.length < q.length →
        p.modules[q]? = none) →
      p.lookup (".".intercalate (m :: names)) = .ok s) ∧
    ∀ (b : Builder) (steps : List Builder.NameStep) (m n : String) (s : Symbol),
      b.modules.contains b.current = true → Builder.lastBound m n b.current steps = some s → IsPlainName n →
      (b.named steps).toProgram.lookup (m ++ "." ++ n) = .ok s := by
  have direct (p : Program) (m n : String) (module : Module) (entry : Entry)
      (known : p.modules[m]? = some module) (own : module.names[n]? = some entry)
      (plain : IsPlainName n) : p.lookup (m ++ "." ++ n) = .ok entry.symbol := by
    -- The whole has no longer part that ends at a point.
    refine Program.lookup_of_unshadowed (.bound known own) (List.forall_mem_singleton.mpr plain) ?_
    intro c d first rest whole
    have lengths := congrArg List.length whole
    rw [List.length_append, List.length_singleton] at lengths
    have left := List.length_pos_iff.mpr first
    have right := List.length_pos_iff.mpr rest
    omega
  refine ⟨direct, fun p m names s leads plain longest => ?_, fun b steps m n s current last plain => ?_⟩
  · refine Program.lookup_of_unshadowed leads plain fun c d first rest whole => ?_
    refine longest (".".intercalate (m :: c)) (".".intercalate d) ?_ ?_
    · rw [← whole, ← List.cons_append, String.intercalate_append_of_ne_nil (List.cons_ne_nil _ _) rest]
    · rw [String.intercalate_cons_of_ne_nil first, String.length_append, String.length_append]
      have point : ".".length = 1 := rfl
      omega
  · have bound := Builder.symbol?_named (m := m) (n := n) current steps
    rw [last, Option.some_or] at bound
    obtain ⟨module, entry, known, own, rfl⟩ := Builder.exists_entry_of_symbol? bound
    exact direct _ m n module entry known own plain

/-- A module in a package that binds a name to another module, in which a name is bound twice. -/
def importSteps : List Builder.NameStep :=
  [.enter "pkg.sub", .define "tools" (.module "helper"), .enter "helper", .define "f" (.cls 3),
    .define "f" (.cls 5)]

def Program.importing : Program := (Builder.bare.named importSteps).toProgram

/-- A name leads through the module that is imported under another name. -/
theorem imported_names_found :
    Program.importing.lookup "helper.f" = .ok (.cls 5) ∧
    Program.importing.lookup "pkg.sub.tools" = .ok (.module "helper") ∧
    Program.importing.lookup "pkg.sub.tools.f" = .ok (.cls 5) := by
  obtain ⟨-, through, last⟩ := qualified_names_found
  have current : Builder.bare.modules.contains Builder.bare.current = true := by decide +kernel
  have plain : ∀ n ∈ ["tools", "f"], IsPlainName n := by
    unfold IsPlainName
    decide
  have tools : Builder.lastBound "pkg.sub" "tools" Builder.bare.current importSteps =
      some (.module "helper") := by
    simp [Builder.lastBound, importSteps]
  have f : Builder.lastBound "helper" "f" Builder.bare.current importSteps = some (.cls 5) := by
    simp [Builder.lastBound, importSteps]
  refine ⟨last _ _ _ _ _ current f (plain "f" (by decide)),
    last _ _ _ _ _ current tools (plain "tools" (by decide)), ?_⟩
  have leads : Program.importing.Leads "pkg.sub" ["tools", "f"] (.cls 5) := by
    have bound := Builder.symbol?_named (m := "pkg.sub") (n := "tools") current importSteps
    have bound' := Builder.symbol?_named (m := "helper") (n := "f") current importSteps
    rw [tools, Option.some_or] at bound
    rw [f, Option.some_or] at bound'
    obtain ⟨module, entry, known, own, onward⟩ := Builder.exists_entry_of_symbol? bound
    obtain ⟨module', entry', known', own', symbol⟩ := Builder.exists_entry_of_symbol? bound'
    exact .through known own onward (symbol ▸ .bound known' own')
  have keys : Program.importing.modules.keys = ["builtins", "helper", "pkg.sub"] := by decide +kernel
  refine through _ _ _ _ leads plain fun q rest whole longer => ?_
  have starts : q.toList <+: "pkg.sub.tools.f".toList := by
    have text := congrArg String.toList whole
    rw [String.toList_append, String.toList_append, List.append_assoc] at text
    exact ⟨_, text.symm⟩
  refine Std.TreeMap.getElem?_eq_none fun known => ?_
  rw [← Std.TreeMap.mem_keys, keys] at known
  have short : ∀ q ∈ ["builtins", "helper", "pkg.sub"],
      q.toList <+: "pkg.sub.tools.f".toList → q.length ≤ "pkg.sub".length := by decide
  exact absurd longer (Nat.not_lt.mpr (short q known starts))

end Gradual
