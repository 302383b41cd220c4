import Gradual.Ty.Basic

/-!
Which actual arguments of a call go to which formal argument. Positional arguments fill the formals
that take one each from left to right and then the one that collects the rest; keywords go to the
formal of their name.
-/

namespace Gradual

/-- How an actual argument is written. -/
structure ArgShape where
  kind : ArgKind
  name : Option String
  deriving DecidableEq, Repr

def ArgKind.isStar : ArgKind → Bool
  | .star | .star2 => true
  | .pos | .opt | .named => false

namespace ArgBinding

/-- For each formal argument, the positions of the actual arguments that go to it. -/
abbrev Bound := List (List Nat)

/-- Gives the actual argument at position `i` to a formal. -/
def give (i : Nat) (formal : Nat) (bound : Bound) : Bound := bound.modify formal (· ++ [i])

/-- Gives the actual argument at position `i` to several formals. -/
def giveAll (i : Nat) (formals : List Nat) (bound : Bound) : Bound :=
  formals.foldl (fun bound formal => give i formal bound) bound

/-- The formal that a keyword goes to: the one of its name, or the one that collects keywords. -/
def keywordFormal? (callee : Signature) (name : Option String) : Option Nat :=
  let byName? := name.bind fun _ =>
    (callee.argNames.zip callee.argKinds).findIdx? fun (n, kind) => n == name && !kind.isStar
  byName?.or (callee.argKinds.findIdx? (· == .star2))

/-- The formals that an argument with all remaining keywords may reach: those behind the cursor that
can be given by keyword and have nothing yet, and the one that collects keywords. -/
def openFormals (callee : Signature) (cursor : Nat) (bound : Bound) : List Nat :=
  (List.range callee.argKinds.length).filter fun k =>
    match callee.argKinds[k]? with
    | some .star2 => true
    | some .star | none => false
    | some _ => decide (cursor ≤ k) && (bound[k]?.any List.isEmpty)

/-- Binds the actual argument at position `i`. The cursor is the first formal that positional
arguments have not filled. -/
def step (callee : Signature) (i : Nat) (shape : ArgShape) (cursor : Nat) (bound : Bound) :
    Nat × Bound :=
  match shape.kind with
  | .pos | .opt =>
    match callee.argKinds[cursor]? with
    | some .pos | some .opt => (cursor + 1, give i cursor bound)
    | some .star => (cursor, give i cursor bound)
    | _ => (cursor, bound)
  | .star =>
    let run := ((callee.argKinds.drop cursor).takeWhile ArgKind.isFixed).length
    let bound := giveAll i (List.range' cursor run) bound
    let cursor := cursor + run
    if callee.argKinds[cursor]? = some .star then (cursor, give i cursor bound)
    else (cursor, bound)
  | .named =>
    match keywordFormal? callee shape.name with
    | some k => (cursor, give i k bound)
    | none => (cursor, bound)
  | .star2 => (cursor, giveAll i (openFormals callee cursor bound) bound)

/-- Binds actual arguments from position `i` on. -/
def run (callee : Signature) : (i cursor : Nat) → Bound → List ArgShape → Bound
  | _, _, bound, [] => bound
  | i, cursor, bound, shape :: rest =>
    let (cursor, bound) := step callee i shape cursor bound
    run callee (i + 1) cursor bound rest

/-- Binds the actual arguments of a call. -/
def bind (callee : Signature) (shapes : List ArgShape) : Bound :=
  run callee 0 0 (callee.argKinds.map fun _ => []) shapes

/-- Is a formal that must be given left without an actual argument? -/
def lacksRequired (callee : Signature) (bound : Bound) : Bool :=
  (callee.argKinds.zip bound).any fun (kind, actuals) => kind == .pos && actuals.isEmpty

def hasStar (shapes : List ArgShape) : Bool := shapes.any (·.kind.isStar)

end ArgBinding
end Gradual
