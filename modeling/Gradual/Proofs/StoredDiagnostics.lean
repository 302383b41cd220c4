import Gradual.Diagnostic.Basic
import Gradual.Proofs.JsonReading
import Mathlib.Data.List.Nodup

/-!
Reports that are stored as JSON. Fields without a value are left out on writing and filled in on
reading, and both go by the same names, so a report comes back as it was, on one line or indented,
and a list of reports comes back as a list in the same order.
-/

namespace Gradual

/-! ### Records -/

namespace Json

/-- The members for the fields that have a value. -/
def present (fields : List (String × Option Json)) : List (String × Json) :=
  fields.filterMap fun (name, v) => v.map (name, ·)

end Json

namespace Decoder

open Json (present)

theorem mapM_eq_some_map {α β : Type} {f : α → Option β} {g : α → β} {xs : List α}
    (each : ∀ x ∈ xs, f x = some (g x)) : xs.mapM f = some (xs.map g) := by
  induction xs with
  | nil => rfl
  | cons x rest ih =>
    have later := ih fun y inside => each y (List.mem_cons_of_mem x inside)
    rw [List.mapM_cons, each x List.mem_cons_self, later]
    rfl

/-- The names of the members are read as they were given. -/
theorem mapM_memberDocs {read : List Char × JsonDoc → Option (String × JsonDoc)}
    (reads : ∀ name doc cs, JsonDoc.unescape name = some cs →
      read (name, doc) = some (String.ofList cs, doc)) (members : List (String × Json)) :
    (Json.memberDocs members).mapM read = some (members.map fun (name, v) => (name, v.toDoc)) := by
  rw [Json.memberDocs_eq_map, List.mapM_map]
  refine mapM_eq_some_map fun member _ => ?_
  have read := reads _ member.2.toDoc _ (JsonDoc.unescape_escape member.1.toList)
  rwa [String.ofList_toList] at read

theorem present_cons (name : String) (v : Option Json) (fields : List (String × Option Json)) :
    present ((name, v) :: fields) = (v.map (name, ·)).toList ++ present fields := by
  cases v <;> rfl

theorem filter_present_eq_nil {fields : List (String × Option Json)} {name : String}
    (absent : name ∉ fields.map (·.1)) :
    ((present fields).map fun (name, v) => (name, v.toDoc)).filter (·.1 == name) = [] := by
  induction fields with
  | nil => rfl
  | cons field rest ih =>
    obtain ⟨other, v⟩ := field
    simp only [List.map_cons, List.mem_cons, not_or] at absent
    have apart : (other == name) = false := beq_eq_false_iff_ne.mpr (Ne.symm absent.1)
    rw [present_cons, List.map_append, List.filter_append, ih absent.2]
    cases v <;> simp [apart]

/-- A field is read as what was written for it, and as missing if nothing was. -/
theorem member?_present {fields : List (String × Option Json)} {name : String} {v : Option Json}
    (distinct : (fields.map (·.1)).Nodup) (inside : (name, v) ∈ fields) :
    member? ((present fields).map fun (name, v) => (name, v.toDoc)) name =
      some (v.map Json.toDoc) := by
  have found : ((present fields).map fun (name, v) => (name, v.toDoc)).filter (·.1 == name) =
      (v.map fun v => (name, v.toDoc)).toList := by
    induction fields with
    | nil => exact absurd inside List.not_mem_nil
    | cons field rest ih =>
      obtain ⟨other, w⟩ := field
      simp only [List.map_cons, List.nodup_cons] at distinct
      rw [present_cons, List.map_append, List.filter_append]
      rcases List.mem_cons.mp inside with same | later
      · cases same
        rw [filter_present_eq_nil distinct.1]
        cases v <;> simp
      · have apart : (other == name) = false := by
          refine beq_eq_false_iff_ne.mpr ?_
          rintro rfl
          exact distinct.1 (List.mem_map_of_mem later)
        rw [ih distinct.2 later]
        cases w <;> simp [apart]
  rw [member?, found]
  cases v <;> rfl

/-- A record is read as it was written, whatever fields are left out. -/
theorem fields_present {fs : List (String × Option Json)} (distinct : (fs.map (·.1)).Nodup)
    (levels : Nat) : fields (fs.map (·.1)) (levels + 1) (Json.obj (present fs)).toDoc =
      some (levels, fs.map fun field => field.2.map Json.toDoc) := by
  have values : (fs.map (·.1)).mapM
      (member? ((present fs).map fun (name, v) => (name, v.toDoc))) =
      some (fs.map fun field => field.2.map Json.toDoc) := by
    rw [List.mapM_map]
    exact mapM_eq_some_map fun field inside => member?_present distinct inside
  rw [Json.toDoc, fields, mapM_memberDocs]
  · simp only [Option.bind_eq_bind, Option.bind_some, values]
    rfl
  · intro name doc cs unescaped
    simp [unescaped]

theorem required_nat {bits n : Nat} (small : n < 2 ^ bits) (levels : Nat) :
    required (natOfBits bits) levels (some (Json.nat n).toDoc) = some n := by
  have inRange : 0 ≤ (n : Int) ∧ (n : Int) ≤ Int.ofNat (Nat.pow 2 bits) - 1 := by
    have power : Int.ofNat (Nat.pow 2 bits) = ((2 ^ bits : Nat) : Int) := rfl
    rw [power]
    omega
  have read : (Json.nat n).toDoc.int? = some (n : Int) := JsonDoc.int?_digits n
  rw [required, Option.bind_some, natOfBits, intIn, read, Option.bind_eq_bind, Option.bind_some,
    if_pos inRange]
  rfl

theorem text_str (s : String) (levels : Nat) : text levels (Json.str s).toDoc = some s := by
  simp [text, Json.toDoc, JsonDoc.text?, JsonDoc.unescape_escape]

theorem required_text (s : String) (levels : Nat) :
    required text levels (some (Json.str s).toDoc) = some s :=
  text_str s levels

theorem withDefault_optional_str (s : Option String) (levels : Nat) :
    withDefault (optional text) none levels ((s.map Json.str).map Json.toDoc) = some s := by
  cases s with
  | none => rfl
  | some s =>
    have read := text_str s levels
    simp only [Json.toDoc] at read
    simp [withDefault, Json.toDoc, optional, read]

theorem list_map {α : Type} {d : Decoder α} {write : α → Json} {items : List α} {levels : Nat}
    (each : ∀ a ∈ items, d levels (write a).toDoc = some a) :
    list d (levels + 1) (Json.list write items).toDoc = some items := by
  rw [Json.list, Json.toDoc, Json.itemDocs_eq_map, list, List.map_map, List.mapM_map]
  have read : items.mapM (fun a => d levels (write a).toDoc) = some (items.map id) :=
    mapM_eq_some_map each
  rwa [List.map_id] at read

end Decoder

/-! ### Reports -/

namespace Diagnostic

variable {d : Diagnostic}

/-- The numbers of a report are of the sizes that are stored: 32 bits for the version and 64 for
places. -/
structure Fits (d : Diagnostic) : Prop where
  version : d.version < 2 ^ 32
  line : d.line < 2 ^ 64
  column : d.column < 2 ^ 64
  length : d.length < 2 ^ 64

/-- The fields as they are written. -/
def record (d : Diagnostic) : List (String × Option Json) :=
  [("diag_version", some (.nat d.version)), ("level", some (.str d.severity.word)),
    ("code", some (.str d.code)), ("message", some (.str d.message)), ("file", some (.str d.file)),
    ("line", some (.nat d.line)), ("column", some (.nat d.column)),
    ("length", some (.nat d.length)),
    ("notes", if d.notes.isEmpty then none else some (Json.list .str d.notes)),
    ("help", d.help.map .str), ("function", d.function.map .str), ("class", d.cls.map .str)]

theorem toJson_eq (d : Diagnostic) : d.toJson = .obj (Json.present d.record) := by
  have optional (name : String) (text : Option String) :
      optionalMember name text = ((text.map Json.str).map (name, ·)).toList := by
    cases text <;> rfl
  have notes : (if d.notes.isEmpty then [] else [("notes", Json.list .str d.notes)]) =
      ((if d.notes.isEmpty then none else some (Json.list .str d.notes)).map
        ("notes", ·)).toList := by
    split <;> rfl
  have nothing : Json.present [] = [] := rfl
  simp only [toJson, optional, notes, record, Decoder.present_cons, nothing, List.append_assoc,
    List.append_nil]
  rfl

theorem decode_toJson (fits : d.Fits) (levels : Nat) :
    decode (levels + 2) d.toJson.toDoc = some d := by
  have names : d.record.map (·.1) = fields := rfl
  have distinct : (d.record.map (·.1)).Nodup := by
    rw [names]
    decide
  have opened := Decoder.fields_present distinct (levels + 1)
  rw [names, ← toJson_eq] at opened
  have severity : Decoder.required (Decoder.variant [(Severity.error.word, Severity.error)] [])
      (levels + 1) (some (Json.str d.severity.word).toDoc) = some d.severity := by
    cases d.severity
    rfl
  have notes : Decoder.withDefault (Decoder.list Decoder.text) [] (levels + 1)
      ((if d.notes.isEmpty then none else some (Json.list .str d.notes)).map Json.toDoc) =
      some d.notes := by
    split
    next none => simp [Decoder.withDefault, List.isEmpty_iff.mp none]
    next => exact Decoder.list_map fun note _ => Decoder.text_str note levels
  have values : (d.record.map fun field => field.2.map Json.toDoc) =
      [some (Json.nat d.version).toDoc, some (Json.str d.severity.word).toDoc,
        some (Json.str d.code).toDoc, some (Json.str d.message).toDoc, some (Json.str d.file).toDoc,
        some (Json.nat d.line).toDoc, some (Json.nat d.column).toDoc,
        some (Json.nat d.length).toDoc,
        (if d.notes.isEmpty then none else some (Json.list .str d.notes)).map Json.toDoc,
        (d.help.map Json.str).map Json.toDoc, (d.function.map Json.str).map Json.toDoc,
        (d.cls.map Json.str).map Json.toDoc] := rfl
  rw [values] at opened
  rw [decode, opened, Option.bind_eq_bind, Option.bind_some]
  dsimp only
  simp only [Decoder.required_nat fits.version, Decoder.required_nat fits.line,
    Decoder.required_nat fits.column, Decoder.required_nat fits.length, severity, notes,
    Decoder.required_text, Decoder.withDefault_optional_str, Option.bind_eq_bind, Option.bind_some]
  rfl

/-- A report with quotes, backslashes, control characters and a character of 17 bits. -/
def oddReport : Diagnostic :=
  { version := 1, severity := .error, code := "PY3002", message := "\"a\\b\"\x00\x1f\n"
    file := "\x7f𝔸.py", line := 3, column := 2 ^ 64 - 1, length := 0
    notes := ["", "\t\r"], help := none, function := some "f\"", cls := none }

end Diagnostic
end Gradual
