import Gradual.Checker.Inference
import Gradual.Proofs.Isolation
import Gradual.Proofs.Renaming

/-!
Types in copies: which of them still mention the type variable that a copy replaces. What a copy has
for itself, its variables, its types and its signatures, mentions the variable no more. What it shares
with the function, of which there are also the functions that are defined in it, mentions what it did.
-/

namespace Gradual

/-! ### Type variables -/

mutual

/-- The type variables that stand in a type, outside the bounds and the values of others. -/
def Ty.typeVars : Ty → List TypeVar
  | .typeVar v => [v]
  | .inst _ _ args => typeVarsOfEach args
  | .tuple items => typeVarsOfEach items
  | .callable s => s.typeVars
  | .overloaded items => typeVarsOfSignatures items
  | .any | .void | .noneType | .unbound _ | .error => []

def Signature.typeVars : Signature → List TypeVar
  | ⟨argTypes, _, _, ret, _, _, _, _⟩ => typeVarsOfEach argTypes ++ ret.typeVars

def typeVarsOfEach : List Ty → List TypeVar
  | [] => []
  | t :: ts => t.typeVars ++ typeVarsOfEach ts

def typeVarsOfSignatures : List Signature → List TypeVar
  | [] => []
  | s :: ss => s.typeVars ++ typeVarsOfSignatures ss

end

mutual

theorem Ty.typeVars_eq_nil_iff : (t : Ty) → (t.typeVars = [] ↔ t.hasTypeVars = false)
  | .any | .void | .noneType | .unbound _ | .error => by simp [Ty.typeVars, Ty.hasTypeVars]
  | .typeVar v => by simp [Ty.typeVars, Ty.hasTypeVars]
  | .inst _ _ args => typeVarsOfEach_eq_nil_iff args
  | .tuple items => typeVarsOfEach_eq_nil_iff items
  | .callable s => s.typeVars_eq_nil_iff
  | .overloaded items => typeVarsOfSignatures_eq_nil_iff items

theorem Signature.typeVars_eq_nil_iff : (s : Signature) → (s.typeVars = [] ↔ s.hasTypeVars = false)
  | ⟨argTypes, _, _, ret, _, _, _, _⟩ => by
    rw [Signature.typeVars, Signature.hasTypeVars, List.append_eq_nil_iff, Bool.or_eq_false_iff,
      typeVarsOfEach_eq_nil_iff argTypes, ret.typeVars_eq_nil_iff]

theorem typeVarsOfEach_eq_nil_iff : (ts : List Ty) → (typeVarsOfEach ts = [] ↔ anyTypeVars ts = false)
  | [] => by simp [typeVarsOfEach, anyTypeVars]
  | t :: ts => by
    rw [typeVarsOfEach, anyTypeVars, List.append_eq_nil_iff, Bool.or_eq_false_iff,
      t.typeVars_eq_nil_iff, typeVarsOfEach_eq_nil_iff ts]

theorem typeVarsOfSignatures_eq_nil_iff :
    (ss : List Signature) → (typeVarsOfSignatures ss = [] ↔ anySignatureTypeVars ss = false)
  | [] => by simp [typeVarsOfSignatures, anySignatureTypeVars]
  | s :: ss => by
    rw [typeVarsOfSignatures, anySignatureTypeVars, List.append_eq_nil_iff, Bool.or_eq_false_iff,
      s.typeVars_eq_nil_iff, typeVarsOfSignatures_eq_nil_iff ss]

end

/-- The type variables of what a type variable is replaced by. -/
def Substitution.typeVars (f : Substitution) (v : TypeVar) : List TypeVar :=
  ((f v).getD (.typeVar v)).typeVars

section

variable (f : Substitution)

mutual

theorem Ty.typeVars_substitute : (t : Ty) → (t.substitute f).typeVars = t.typeVars.flatMap f.typeVars
  | .any | .void | .noneType | .unbound _ | .error => rfl
  | .typeVar v => by
    rw [Ty.substitute, Ty.typeVars, List.flatMap_cons, List.flatMap_nil, List.append_nil]
    rfl
  | .inst _ _ args => typeVarsOfEach_substituteEach args
  | .tuple items => typeVarsOfEach_substituteEach items
  | .callable s => s.typeVars_substitute
  | .overloaded items => typeVarsOfSignatures_substitute items

theorem Signature.typeVars_substitute :
    (s : Signature) → (Ty.substituteSignature f s).typeVars = s.typeVars.flatMap f.typeVars
  | ⟨argTypes, _, _, ret, _, _, _, _⟩ => by
    rw [Ty.substituteSignature, Signature.typeVars, Signature.typeVars, List.flatMap_append,
      typeVarsOfEach_substituteEach argTypes, ret.typeVars_substitute]

theorem typeVarsOfEach_substituteEach :
    (ts : List Ty) → typeVarsOfEach (Ty.substituteEach f ts) = (typeVarsOfEach ts).flatMap f.typeVars
  | [] => rfl
  | t :: ts => by
    rw [Ty.substituteEach, typeVarsOfEach, typeVarsOfEach, List.flatMap_append,
      t.typeVars_substitute, typeVarsOfEach_substituteEach ts]

theorem typeVarsOfSignatures_substitute :
    (ss : List Signature) → typeVarsOfSignatures (Ty.substituteSignatures f ss) =
      (typeVarsOfSignatures ss).flatMap f.typeVars
  | [] => rfl
  | s :: ss => by
    rw [Ty.substituteSignatures, typeVarsOfSignatures, typeVarsOfSignatures, List.flatMap_append,
      s.typeVars_substitute, typeVarsOfSignatures_substitute ss]

end

end

theorem TypeArgs.lookup?_single (a : Int) (value : Ty) (id : Int) :
    TypeArgs.lookup? [(a, value)] id = if id = a then some value else none := by
  by_cases same : a = id
  · simp [lookup?, same]
  · simp [lookup?, same, Ne.symm same]

/-- Where a type variable stands for a type without type variables, all others stay. -/
theorem Ty.typeVars_expand {a : Int} {value : Ty} (closed : value.hasTypeVars = false) (t : Ty) :
    (t.expand [(a, value)]).typeVars = t.typeVars.filter (·.id ≠ a) := by
  have replaced : Substitution.typeVars (fun v => TypeArgs.lookup? [(a, value)] v.id) =
      fun v : TypeVar => if v.id = a then [] else [v] := by
    funext v
    rw [Substitution.typeVars, TypeArgs.lookup?_single]
    split
    · exact value.typeVars_eq_nil_iff.mpr closed
    · rfl
  have expanded : t.expand [(a, value)] = t.substitute fun v => TypeArgs.lookup? [(a, value)] v.id := rfl
  rw [expanded, typeVars_substitute, replaced]
  induction t.typeVars with
  | nil => rfl
  | cons v vs ih => by_cases same : v.id = a <;> simp [same, ih]

/-- Does a type mention a type variable? -/
def Ty.Mentions (a : Int) (t : Ty) : Prop := ∃ v ∈ t.typeVars, v.id = a

theorem Ty.not_mentions_expand {a : Int} {value : Ty} (closed : value.hasTypeVars = false) (t : Ty) :
    ¬ (t.expand [(a, value)]).Mentions a := by
  rintro ⟨v, member, same⟩
  rw [typeVars_expand closed] at member
  simp [same] at member

theorem Ty.expand_callable (s : Signature) (args : TypeArgs) :
    (Ty.callable s).expand args = .callable (s.expand args) := by
  cases args <;> rfl

theorem Signature.quantified_expand (s : Signature) (args : TypeArgs) :
    (s.expand args).quantified = s.quantified.filter fun v => (args.lookup? v.id).isNone := by
  obtain ⟨_, _, _, _, quantified, _, _, _⟩ := s
  cases args with
  | nil => exact (List.filter_true quantified).symm
  | cons => rfl

/-! ### Types of leaves -/

/-- The types that the declarations at a leaf state. -/
def Leaf.types (vars : VarTypes) : Leaf → List Ty
  | .binds v | .shares v => (vars.get? v).toList
  | .name ref => (ref.symbol.declaredType? vars).toList
  | .type t => [t]
  | .signature s => [.callable s]
  | .declares f => [f.type]

/-- Is a leaf shared between a function and its copies, given the leaves before it? Types and
signatures are not, and variables are not from the place on that introduces them. -/
def Leaf.isShared (before : List Leaf) (l : Leaf) : Bool :=
  match l.mention? with
  | some m =>
    m.role == .shares || !((before ++ [l]).filterMap mention?).any fun x =>
      x.var.id == m.var.id && x.role.isIntroduction
  | none =>
    match l with
    | .type _ | .signature _ => false
    | .binds _ | .name _ | .shares _ | .declares _ => true

theorem Leaf.types_of_mention {l : Leaf} {m : Mention} (mentioned : l.mention? = some m)
    (vars : VarTypes) : l.types vars = (vars.get? m.var).toList := by
  cases l with
  | binds | shares =>
    cases mentioned
    rfl
  | name ref =>
    obtain ⟨name, fullName, binding, symbol, isDef⟩ := ref
    cases symbol with
    | var =>
      cases mentioned
      rfl
    | func | cls | module | typeVar => cases mentioned
  | type | signature | declares => cases mentioned

/-- Variables that do not exist yet have no types. -/
def VarTypes.IsSupply (s : VarTypes) : Prop := ∀ id, s.next ≤ id → s.types[id]? = none

theorem VarTypes.getElem?_fresh {s : VarTypes} (supply : s.IsSupply) (name fullName : String)
    (owner : Option ClassId) (type : Option Ty) (id : VarId) :
    (s.fresh name fullName owner type).2.types[id]? = if id = s.next then type else s.types[id]? := by
  have free := supply s.next (Nat.le_refl _)
  cases type with
  | none =>
    by_cases new : id = s.next
    · rw [if_pos new, new]
      exact free
    · rw [if_neg new]
      rfl
  | some t =>
    by_cases new : id = s.next
    · simp [fresh, new]
    · simp [fresh, Std.TreeMap.getElem?_insert, new, Ne.symm new]

namespace Naming

variable {args : TypeArgs} {types : VarTypes} {n : Naming} {m : Mention}

/-- The variables of a copy have the types of those that they stand for, with type variables replaced,
and all others have the types that they had. -/
structure Mirrors (args : TypeArgs) (types : VarTypes) (n : Naming) : Prop extends
    n.Since types.next where
  supply : n.vars.IsSupply
  old : ∀ id : VarId, id < types.next → n.vars.types[id]? = types.types[id]?
  new : ∀ (v : VarId) (u : Var), n.renamed[v]? = some u →
    n.vars.types[u.id]? = (types.types[v]?).map (·.expand args)

theorem Mirrors.empty (args : TypeArgs) (supply : types.IsSupply) : Mirrors args types ⟨∅, types⟩ where
  next := Nat.le_refl _
  renamed v u known := by simp at known
  supply := supply
  old _ _ := rfl
  new v u known := by simp at known

theorem Mirrors.step (mirrors : n.Mirrors args types) (old : m.var.id < types.next) :
    (n.step args m).Mirrors args types := by
  have since := mirrors.toSince.step args (m := m)
  by_cases made : n.makes m = true
  · have after : n.step args m = (n.fresh args m.var).2 := if_pos made
    have type : ∀ id : VarId, (n.step args m).vars.types[id]? =
        if id = n.vars.next then (types.types[m.var.id]?).map (·.expand args)
        else n.vars.types[id]? := by
      intro id
      rw [after, ← mirrors.old _ old]
      exact VarTypes.getElem?_fresh mirrors.supply m.var.name m.var.fullName m.var.owner _ id
    have next : (n.step args m).vars.next = n.vars.next + 1 := by
      rw [after]
      rfl
    refine ⟨since, fun id unused => ?_, fun id known => ?_, fun v u known => ?_⟩
    · rw [next] at unused
      rw [type, if_neg (Nat.ne_of_gt unused), mirrors.supply id (Nat.le_of_succ_le unused)]
    · rw [type, if_neg (Nat.ne_of_lt (Nat.lt_of_lt_of_le known mirrors.next)), mirrors.old id known]
    · rw [renamed_step] at known
      rw [type]
      split at known
      · rename_i about
        obtain rfl := Option.some.inj known
        rw [if_pos (show (n.fresh args m.var).1.id = n.vars.next from rfl), about.2]
      · have bounded := (mirrors.renamed v u known).2
        rw [if_neg (Nat.ne_of_lt bounded), mirrors.new v u known]
  · rw [Naming.step, if_neg made]
    exact mirrors

theorem Mirrors.steps (mirrors : n.Mirrors args types) {ms : List Mention}
    (old : ∀ m ∈ ms, m.var.id < types.next) : (ms.foldl (Naming.step args) n).Mirrors args types := by
  induction ms generalizing n with
  | nil => exact mirrors
  | cons m ms ih =>
    obtain ⟨first, rest⟩ := List.forall_mem_cons.mp old
    exact ih (mirrors.step first) rest

/-- The type of the variable at a place of the copy. -/
theorem Mirrors.get?_target (mirrors : n.Mirrors args types) (old : m.var.id < types.next) :
    n.vars.get? (n.target m) =
      if m.role = .shares ∨ n.renamed[m.var.id]? = none then types.get? m.var
      else (types.get? m.var).map (·.expand args) := by
  have same : n.vars.get? m.var = types.get? m.var := mirrors.old _ old
  by_cases shared : m.role = .shares
  · rw [if_pos (.inl shared), target, if_pos shared, same]
  · rw [target_of_not_shares shared]
    cases known : n.renamed[m.var.id]? with
    | none => rw [if_pos (.inr rfl), Option.getD_none, same]
    | some u =>
      have unshared : ¬ (m.role = .shares ∨ some u = none) := by simp [shared]
      rw [if_neg unshared, Option.getD_some]
      exact mirrors.new _ u known

theorem Mirrors.target_lt (mirrors : n.Mirrors args types) (old : m.var.id < types.next) :
    (n.target m).id < n.vars.next := by
  have older : m.var.id < n.vars.next := Nat.lt_of_lt_of_le old mirrors.next
  by_cases shared : m.role = .shares
  · rwa [target, if_pos shared]
  · rw [target_of_not_shares shared]
    cases known : n.renamed[m.var.id]? with
    | none => exact older
    | some u => exact (mirrors.renamed _ u known).2

/-- The types of variables stay while others are made. -/
theorem get?_steps {v : Var} (old : v.id < n.vars.next) (ms : List Mention) :
    (ms.foldl (Naming.step args) n).vars.get? v = n.vars.get? v := by
  induction ms generalizing n with
  | nil => rfl
  | cons m ms ih =>
    have next : n.vars.next ≤ (n.step args m).vars.next := next_le_steps args [m]
    rw [List.foldl_cons, ih (Nat.lt_of_lt_of_le old next)]
    unfold Naming.step
    split
    · exact Copy.get?_fresh_of_lt old m.var.name m.var.fullName m.var.owner _
    · rfl

end Naming

/-! ### Types in copies -/

section

variable (args : TypeArgs) {n : Naming}

theorem copyLeaves_naming (ls : List Leaf) :
    (copyLeaves args n ls).2 = (ls.filterMap Leaf.mention?).foldl (Naming.step args) n := by
  induction ls generalizing n with
  | nil => rfl
  | cons l ls ih =>
    rw [copyLeaves, ih, List.filterMap_cons]
    cases mentioned : l.mention? with
    | none => rw [(Leaf.copy_of_no_mention args mentioned).2]
    | some m => rw [(Leaf.copy_of_mention args mentioned).2, List.foldl_cons]

theorem length_copyLeaves (ls : List Leaf) : (copyLeaves args n ls).1.length = ls.length := by
  induction ls generalizing n with
  | nil => rfl
  | cons l ls ih => rw [copyLeaves, List.length_cons, List.length_cons, ih]

/-- What a leaf behind others is copied to. -/
theorem copyLeaves_getElem? (before after : List Leaf) (l : Leaf) :
    (copyLeaves args n (before ++ l :: after)).1[before.length]? =
      some (l.copy args (copyLeaves args n before).2).1 := by
  rw [copyLeaves_append, List.getElem?_append_right (Nat.le_of_eq (length_copyLeaves args before)),
    length_copyLeaves, Nat.sub_self, copyLeaves, List.getElem?_cons_zero]

/-- The types at a leaf of a copy: those at the leaf that it is a copy of if the two share it, and
else these with the type variables replaced. -/
theorem Leaf.types_copy {types : VarTypes} (supply : types.IsSupply) (before after : List Leaf)
    (l : Leaf) (old : ∀ x ∈ before ++ l :: after, ∀ m, x.mention? = some m → m.var.id < types.next) :
    let made := copyLeaves args ⟨∅, types⟩ (before ++ l :: after)
    (l.copy args (copyLeaves args ⟨∅, types⟩ before).2).1.types made.2.vars =
      if l.isShared before then l.types types else (l.types types).map (·.expand args) := by
  intro made
  cases mentioned : l.mention? with
  | some m =>
    let ms := before.filterMap mention?
    have about : (before ++ [l]).filterMap mention? = ms ++ [m] := by
      rw [List.filterMap_append, List.filterMap_cons, mentioned]
      rfl
    have oldBefore : ∀ x ∈ ms ++ [m], x.var.id < types.next := by
      rw [← about]
      intro x member
      obtain ⟨y, listed, mention⟩ := List.mem_filterMap.mp member
      refine old y ?_ x mention
      rw [List.append_cons]
      exact List.mem_append_left _ listed
    have here : m.var.id < types.next := old l (by simp) m mentioned
    let n := (ms ++ [m]).foldl (Naming.step args) ⟨∅, types⟩
    have mirrors : n.Mirrors args types := (Naming.Mirrors.empty args supply).steps oldBefore
    have final : made.2 = (after.filterMap mention?).foldl (Naming.step args) n := by
      rw [copyLeaves_naming, List.append_cons, List.filterMap_append, about, List.foldl_append]
    have copied : (l.copy args (copyLeaves args ⟨∅, types⟩ before).2).1.mention? =
        some ⟨n.target m, m.role⟩ := by
      rw [copyLeaves_naming, (copy_of_mention args mentioned).1]
      simp only [n, List.foldl_append, List.foldl_cons, List.foldl_nil, ms]
    have shared : l.isShared before = true ↔ m.role = .shares ∨ n.renamed[m.var.id]? = none := by
      rw [Naming.renamed_eq_none_iff]
      simp [isShared, mentioned, about, or_imp, forall_and]
    rw [types_of_mention copied, types_of_mention mentioned, final,
      Naming.get?_steps (mirrors.target_lt here), mirrors.get?_target here]
    simp only [← shared]
    split
    · rfl
    · exact Option.toList_map
  | none =>
    cases l with
    | binds | shares => cases mentioned
    | type | declares => rfl
    | signature s => exact congrArg ([·]) (Ty.expand_callable s args).symm
    | name ref =>
      obtain ⟨name, fullName, binding, symbol, isDef⟩ := ref
      cases symbol with
      | var => cases mentioned
      | func | cls | module | typeVar => rfl

/-- A copy of a function leaf by leaf. -/
theorem FuncDef.instantiate_leaf_types (d : FuncDef) (node : NodeId) {types : VarTypes}
    (supply : types.IsSupply) (old : ∀ m ∈ d.mentions .copying, m.var.id < types.next)
    {before after : List Leaf} {l : Leaf} (split : d.leaves .copying = before ++ l :: after) :
    let made := d.instantiate args node types
    ∃ l', (made.1.leaves .copying)[before.length]? = some l' ∧
      l'.types made.2.2 =
        if l.isShared before then l.types types else (l.types types).map (·.expand args) := by
  intro made
  obtain ⟨leaves, vars⟩ := d.instantiate_leaves args node types
  have known : ∀ x ∈ before ++ l :: after, ∀ m, x.mention? = some m → m.var.id < types.next :=
    fun x listed m mentioned =>
      old m (List.mem_filterMap.mpr ⟨x, split ▸ listed, mentioned⟩)
  rw [split] at leaves vars
  rw [leaves, vars]
  exact ⟨_, copyLeaves_getElem? args before after l, Leaf.types_copy args supply before after l known⟩

end

/-- Where a copy is made of a function for a type without type variables, the signature with which it
is checked mentions the type variable no more. Every leaf of the copy states the types of the leaf that
it is a copy of, with the type variable replaced if the two do not share it; so it mentions the type
variable exactly if it is shared and mentioned it before. That is so at every reference to a function
that is defined in the body, whose declaration is the same for all copies. -/
theorem copy_mentions_replaced_iff_shared (d : FuncDef) (a : TypeVar) (value : Ty) (env : Env)
    (s : State) (closed : value.hasTypeVars = false) (supply : s.vars.IsSupply)
    (old : ∀ m ∈ d.mentions .copying, m.var.id < s.vars.next) :
    let made := ((Check.instantiate d a value).outcome env s).1
    let vars := ((Check.instantiate d a value).outcome env s).2.vars
    ¬ (Ty.callable made.signature).Mentions a.id ∧ (∀ v ∈ made.signature.quantified, v.id ≠ a.id) ∧
      (made.func.leaves .copying).length = (d.leaves .copying).length ∧
      ∀ before l after, d.leaves .copying = before ++ l :: after →
        ∃ l', (made.func.leaves .copying)[before.length]? = some l' ∧
          l'.types vars =
            (if l.isShared before then l.types s.vars
              else (l.types s.vars).map (·.expand [(a.id, value)])) ∧
          ((∃ t ∈ l'.types vars, t.Mentions a.id) ↔
            l.isShared before = true ∧ ∃ t ∈ l.types s.vars, t.Mentions a.id) := by
  intro made vars
  have signature : made.signature = d.type.expand [(a.id, value)] := rfl
  refine ⟨?_, ?_, ?_, fun before l after split => ?_⟩
  · rw [signature, ← Ty.expand_callable]
    exact Ty.not_mentions_expand closed _
  · intro v member same
    rw [signature, Signature.quantified_expand] at member
    simp [TypeArgs.lookup?_single, same] at member
  · exact (congrArg List.length (d.instantiate_leaves _ s.nextNode s.vars).1).trans
      (length_copyLeaves _ _)
  · obtain ⟨l', found, types⟩ :=
      d.instantiate_leaf_types [(a.id, value)] s.nextNode supply old split
    refine ⟨l', found, types, ?_⟩
    have stated : l'.types vars = _ := types
    rw [stated]
    cases l.isShared before with
    | true => simp
    | false =>
      have replaced : ¬ ∃ t ∈ (l.types s.vars).map (·.expand [(a.id, value)]), t.Mentions a.id := by
        rintro ⟨t, member, mentions⟩
        obtain ⟨original, -, rfl⟩ := List.mem_map.mp member
        exact Ty.not_mentions_expand closed original mentions
      simpa using replaced

/-! ### A function in a function -/

/-- A type variable for one type. -/
def TypeVar.onlyEmpty : TypeVar := ⟨"T", -1, [.tuple []], .any⟩

/-- A function that returns what it is given, as another one declares it. -/
def FunctionSymbol.inner (t : Ty) : FunctionSymbol :=
  ⟨"inner", "m.inner", none, .callable (.positional [t] t), false⟩

/-- Its definition, with the variable for its argument and the id of the occurrence of that. -/
def FuncDef.inner (t : Ty) (symbol : FunctionSymbol) (arg : Var) (use : NodeId) : FuncDef where
  name := "inner"
  fullName := "m.inner"
  owner := none
  params := [⟨arg, .pos, none⟩]
  body := [⟨.atLine 2, .ret (some (.ofLocal use arg false))⟩]
  signature := some (.positional [t] t)
  isGenerator := false
  span := .atLine 2
  isAbstract := false
  earlier := none
  symbol

/-- A call of the function with a variable. -/
def Expr.callInner (symbol : FunctionSymbol) (arg : Var) (first : NodeId) : Expr :=
  ⟨first + 2, .atLine 3, .call
    ⟨first, .atLine 3, .name ⟨"inner", "m.inner", .inFunction, .func symbol, false⟩⟩
    [⟨.pos, none, .ofLocal (first + 1) arg false⟩]⟩

/-- A function that lets a function of its own return what it is given; `first` is the first of its
variables and `node` the first of its ids. -/
def FuncDef.outer (t : Ty) (quantified : List TypeVar) (symbol : FunctionSymbol) (first : VarId)
    (node : NodeId) : FuncDef where
  name := "outer"
  fullName := "m.outer"
  owner := none
  params := [⟨⟨first, "x", "x", none⟩, .pos, none⟩]
  body := [⟨.atLine 2, .func (.inner t symbol ⟨first + 1, "y", "y", none⟩ node)⟩,
    ⟨.atLine 3, .ret (some (.callInner symbol ⟨first, "x", "x", none⟩ (node + 1)))⟩]
  signature := some { Signature.positional [t] t with quantified }
  isGenerator := false
  span := .atLine 1
  isAbstract := false
  earlier := none
  symbol := ⟨"outer", "m.outer", none, .any, false⟩

/-- A function whose type variable stands for empty tuples only. -/
def FuncDef.generic : FuncDef :=
  .outer (.typeVar .onlyEmpty) [.onlyEmpty] (.inner (.typeVar .onlyEmpty)) 0 0

/-- The copy of the function is the function for empty tuples, up to the declaration of the function in
it. -/
theorem FuncDef.instantiate_generic :
    FuncDef.generic.instantiate [(TypeVar.onlyEmpty.id, .tuple [])] 4 ⟨2, ∅⟩ =
      (.outer (.tuple []) [] (.inner (.typeVar .onlyEmpty)) 2 4, 8, ⟨4, ∅⟩) := by
  simp only [FuncDef.instantiate, FuncDef.generic, FuncDef.outer, FuncDef.inner, Expr.callInner,
    Expr.ofLocal, FuncDef.copy, copyBlock, Stmt.copy, StmtKind.copy, Expr.copy, ExprKind.copy,
    copyOption, copyActuals, Copy.params, List.mapM_cons, List.mapM_nil]
  rfl

/-- A state in which only the variables of the function and its ids are taken. -/
def State.beforeGeneric : State :=
  { State.initial Builder.bare.toProgram with nextNode := 4, vars := ⟨2, ∅⟩ }

/-- How many problems the check of a function reports. -/
def FuncDef.problems (d : FuncDef) (s : State) : Nat :=
  ((d.check Block.check).outcome (.ofProgram Builder.bare.toProgram default) s).2.diagnostics.length

/-- In the copy for empty tuples the function that is called still takes what the type variable stands
for, so that the check of the copy reports a problem. There is none if the empty tuple is written in
place of the type variable. -/
theorem generic_copy_calls_unreplaced_inner :
    let env := Env.ofProgram Builder.bare.toProgram default
    let made := ((Check.instantiate .generic .onlyEmpty (.tuple [])).outcome env .beforeGeneric).1
    let s := ((Check.instantiate .generic .onlyEmpty (.tuple [])).outcome env .beforeGeneric).2
    FuncDef.generic.restricted? = some .onlyEmpty ∧
      (∃ l, (made.func.leaves .copying)[5]? = some l ∧
        ∃ t ∈ l.types s.vars, t.Mentions TypeVar.onlyEmpty.id) ∧
      made.func.problems s = 1 ∧
      (FuncDef.outer (.tuple []) [] (.inner (.tuple [])) 2 4).problems s = 0 := by
  intro env made s
  have supply : State.beforeGeneric.vars.IsSupply := fun id _ => Std.TreeMap.getElem?_emptyc
  have func : made.func = .outer (.tuple []) [] (.inner (.typeVar .onlyEmpty)) 2 4 :=
    congrArg (·.1) FuncDef.instantiate_generic
  have state : s = { State.beforeGeneric with nextNode := 8, vars := ⟨4, ∅⟩ } :=
    congrArg (fun made => { State.beforeGeneric with nextNode := made.2.1, vars := made.2.2 })
      FuncDef.instantiate_generic
  have mentions := copy_mentions_replaced_iff_shared .generic .onlyEmpty (.tuple []) env .beforeGeneric
    rfl supply (by decide)
  obtain ⟨-, -, -, leaves⟩ := mentions
  obtain ⟨l, found, -, same⟩ := leaves ((FuncDef.generic.leaves .copying).take 5)
    (.name ⟨"inner", "m.inner", .inFunction, .func (.inner (.typeVar .onlyEmpty)), false⟩)
    ((FuncDef.generic.leaves .copying).drop 6) rfl
  refine ⟨rfl, ⟨l, found, same.mpr ⟨rfl, _, List.mem_singleton.mpr rfl, .onlyEmpty, ?_, rfl⟩⟩, ?_, ?_⟩
  · exact List.mem_cons_self
  · rw [func, state]
    decide +kernel
  · rw [state]
    decide +kernel

end Gradual
