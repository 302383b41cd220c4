/-!
TOML values, as far as settings use them, and tables that are filled entry by entry. A table knows
how it came about, since that decides what may still be added to it.
-/

namespace Gradual.Toml

/-- How a table came about. -/
inductive Origin where
  /-- Written in braces: nothing can be added. -/
  | braces
  /-- Named by a header. -/
  | header
  /-- One of the tables that headers in two pairs of brackets list. -/
  | listed
  /-- Named only in front of a dot in a header. -/
  | impliedByHeader
  /-- Named in front of a dot in the key of an entry. -/
  | impliedByKey
  deriving DecidableEq, Repr

inductive Value where
  | text (s : String)
  | integer (n : Int)
  /-- A truth value, a number that is no integer, or a date or time. No setting has one, so nothing
  more is known of it. -/
  | other
  | array (items : List Value)
  | table (origin : Origin) (entries : List (String × Value))
  /-- The tables that headers list under one name. -/
  | tables (earlier : List (List (String × Value))) (last : List (String × Value))

instance : Inhabited Value := ⟨.other⟩

/-- A key with the parts between its dots. -/
abbrev Key := List String

/-- The entries of a table, each with a name of its own. -/
abbrev Table := List (String × Value)

/-- The table that a path through a value goes on in, how it came about, and the value with another
table in its place. Of listed tables it is the last. -/
def Value.inner? : Value → Option (Origin × Table × (Table → Value))
  | .table origin entries => some (origin, entries, .table origin)
  | .tables earlier last => some (.listed, last, .tables earlier)
  | .text _ | .integer _ | .other | .array _ => none

/-- May the key of an entry, of which `rest` is left, go on in such a table? To be added there
itself, an entry needs a table that is implied by a key. -/
def Origin.takesKey (rest : Key) : Origin → Bool
  | .impliedByKey => true
  | .impliedByHeader | .listed => 1 < rest.length
  | .braces | .header => false

namespace Table

def get? (t : Table) (name : String) : Option Value := (t.find? (·.1 == name)).map (·.2)

/-- Puts a value in place of the one of that name. -/
def replace (t : Table) (name : String) (v : Value) : Table :=
  t.map fun entry => if entry.1 == name then (name, v) else entry

/-- Adds an entry, whose name must be new. Tables that its key goes through and that are not there
are implied by it. -/
def insert? (t : Table) : Key → Value → Option Table
  | [], _ => none
  | [name], v => if (t.get? name).isNone then some (t ++ [(name, v)]) else none
  | name :: rest, v =>
    match t.get? name with
    | none => (insert? [] rest v).map fun inner => t ++ [(name, .table .impliedByKey inner)]
    | some held => do
      let (origin, inner, put) ← held.inner?
      if origin.takesKey rest then return t.replace name (put (← insert? inner rest v)) else none

/-- Adds the table that a header names. It must be new or implied by another header. -/
def openOne? (t : Table) (name : String) : Option Table :=
  match t.get? name with
  | none => some (t ++ [(name, .table .header [])])
  | some (.table .impliedByHeader inner) => some (t.replace name (.table .header inner))
  | some _ => none

/-- Adds a table to those that headers list under a name. -/
def openListed? (t : Table) (name : String) : Option Table :=
  match t.get? name with
  | none => some (t ++ [(name, .tables [] [])])
  | some (.tables earlier last) => some (t.replace name (.tables (earlier ++ [last]) []))
  | some _ => none

/-- Follows the key of a header up to its last part, which `add` takes. -/
def open? (add : Table → String → Option Table) (t : Table) : Key → Option Table
  | [] => none
  | [name] => add t name
  | name :: rest =>
    match t.get? name with
    | none => (open? add [] rest).map fun inner => t ++ [(name, .table .impliedByHeader inner)]
    | some held => do
      let (origin, inner, put) ← held.inner?
      if origin = .braces then none else return t.replace name (put (← open? add inner rest))

/-- Changes the table at the end of a path of tables. -/
def modify? (f : Table → Option Table) (t : Table) : Key → Option Table
  | [] => f t
  | name :: rest => do
    let (_, inner, put) ← (← t.get? name).inner?
    return t.replace name (put (← modify? f inner rest))

/-- The table of some entries. -/
def ofEntries? (entries : List (Key × Value)) : Option Table :=
  entries.foldlM (fun t (key, v) => t.insert? key v) []

end Table

/-- A line of a document that says something. -/
inductive Statement where
  /-- Names the table that the entries below it belong to. -/
  | header (key : Key)
  /-- Lists one more table under a name; the entries below it belong to that table. -/
  | listedHeader (key : Key)
  | entry (key : Key) (v : Value)

/-- Adds statements to a table; `current` is the table that the last header named. -/
def Table.addAll? (current : Key) (t : Table) : List Statement → Option Table
  | [] => some t
  | .header key :: rest => do Table.addAll? key (← t.open? Table.openOne? key) rest
  | .listedHeader key :: rest => do Table.addAll? key (← t.open? Table.openListed? key) rest
  | .entry key v :: rest => do
    Table.addAll? current (← t.modify? (fun inner => inner.insert? key v) current) rest

/-- The table that a document describes. -/
def Table.ofStatements? (statements : List Statement) : Option Table :=
  Table.addAll? [] [] statements

end Gradual.Toml
