import Gradual.Json.Document
import Gradual.Json.Value
import Mathlib.Data.List.DropRight
import Mathlib.Tactic.IntervalCases

/-!
JSON values read back. What is written of a value, on one line or indented, is a text of the value
with some blanks between its parts, and the reader takes such a text off the front of whatever
follows it. Strings and numbers come back as they were written.
-/

namespace Gradual

/-! ### Strings -/

namespace JsonDoc

open Json (escapeChar escape hexDigit)

theorem hex4?_hexDigit {n : Nat} (small : n < 0x20) :
    hex4? '0' '0' (hexDigit (n / 16)) (hexDigit (n % 16)) = some n := by
  interval_cases n <;> rfl

/-- The ways to write a character. -/
theorem escapeChar_cases (c : Char) :
    (∃ e ∈ ['"', '\\', 'b', 'f', 'n', 'r', 't'], escapeChar c = ['\\', e] ∧ simpleEscape e = c) ∨
      (c.toNat < 0x20 ∧ escapeChar c =
        ['\\', 'u', '0', '0', hexDigit (c.toNat / 16), hexDigit (c.toNat % 16)]) ∨
      (c ≠ '"' ∧ c ≠ '\\' ∧ ¬ c.toNat < 0x20 ∧ escapeChar c = [c]) := by
  unfold escapeChar
  split
  next same => exact .inl ⟨'"', by simp, rfl, same.symm⟩
  next noQuote =>
    split
    next same => exact .inl ⟨'\\', by simp, rfl, same.symm⟩
    next noBackslash =>
      split
      next same => exact .inl ⟨'b', by simp, rfl, same.symm⟩
      split
      next same => exact .inl ⟨'f', by simp, rfl, same.symm⟩
      split
      next same => exact .inl ⟨'n', by simp, rfl, same.symm⟩
      split
      next same => exact .inl ⟨'r', by simp, rfl, same.symm⟩
      split
      next same => exact .inl ⟨'t', by simp, rfl, same.symm⟩
      split
      next control => exact .inr (.inl ⟨control, rfl⟩)
      next plain => exact .inr (.inr ⟨noQuote, noBackslash, plain, rfl⟩)

theorem readBody_escapeChar (c : Char) (rest : List Char) :
    readBody (escapeChar c ++ rest) =
      (readBody rest).map fun (body, rest) => (escapeChar c ++ body, rest) := by
  rcases escapeChar_cases c with ⟨e, simple, written, -⟩ | ⟨control, written⟩ |
    ⟨noQuote, noBackslash, plain, written⟩
  · rw [written]
    simp only [List.mem_cons, List.not_mem_nil, or_false] at simple
    rcases simple with rfl | rfl | rfl | rfl | rfl | rfl | rfl <;> simp [readBody]
  · rw [written]
    simp only [List.cons_append, List.nil_append, readBody, hex4?_hexDigit control]
    cases readBody rest <;> rfl
  · rw [written]
    simp [readBody, noBackslash, plain]

theorem readBody_escape (cs rest : List Char) :
    readBody (escape cs ++ '"' :: rest) = some (escape cs, rest) := by
  induction cs with
  | nil => simp [escape, readBody]
  | cons c cs ih =>
    have front : escape (c :: cs) = escapeChar c ++ escape cs := rfl
    rw [front, List.append_assoc, readBody_escapeChar, ih]
    rfl

/-- Where an escaped number is read, its digits stand for one. -/
theorem exists_hex4?_of_unescape {a b c d : Char} {rest cs : List Char}
    (read : unescape ('\\' :: 'u' :: a :: b :: c :: d :: rest) = some cs) :
    ∃ n, hex4? a b c d = some n := by
  cases value : hex4? a b c d with
  | some n => exact ⟨n, rfl⟩
  | none =>
    rw [unescape.eq_def] at read
    split at read
    case h_1 same => cases same
    case h_2 same => cases same; simp [value] at read
    case h_3 same => cases same; simp [value] at read
    case h_4 noNumber same => cases same; exact absurd rfl (noNumber _ _ _ _ _ rfl)
    case h_5 noEscape same => cases same; exact absurd rfl (noEscape _ _ rfl)

/-- An escaped number that is not half of a pair stands for its character, whatever comes next. -/
theorem unescape_number {a b c d : Char} {n : Nat} {rest cs : List Char}
    (value : hex4? a b c d = some n) (below : n < 0xd800) (read : unescape rest = some cs) :
    unescape ('\\' :: 'u' :: a :: b :: c :: d :: rest) = some (Char.ofNat n :: cs) := by
  have noHigh : ¬ (0xd800 ≤ n ∧ n < 0xdc00) := by omega
  have noLow : ¬ (0xdc00 ≤ n ∧ n < 0xe000) := by omega
  have noHalf : ¬ (0xd800 ≤ n ∧ n < 0xe000) := by omega
  rw [unescape.eq_def]
  split
  case h_1 same => cases same
  case h_2 same =>
    cases same
    obtain ⟨next, nextValue⟩ := exists_hex4?_of_unescape read
    simp only [value, nextValue, if_neg noHigh, if_neg noLow, read, Option.map_some]
  case h_3 same =>
    cases same
    simp only [value, if_neg noHalf, read, Option.map_some]
  case h_4 noNumber same => cases same; exact absurd rfl (noNumber _ _ _ _ _ rfl)
  case h_5 noEscape same => cases same; exact absurd rfl (noEscape _ _ rfl)

theorem unescape_escapeChar {c : Char} {rest cs : List Char} (read : unescape rest = some cs) :
    unescape (escapeChar c ++ rest) = some (c :: cs) := by
  rcases escapeChar_cases c with ⟨e, simple, written, rfl⟩ | ⟨control, written⟩ |
    ⟨-, noBackslash, -, written⟩
  · rw [written]
    simp only [List.mem_cons, List.not_mem_nil, or_false] at simple
    rcases simple with rfl | rfl | rfl | rfl | rfl | rfl | rfl <;> simp [unescape, read]
  · rw [written]
    have unescaped := unescape_number (hex4?_hexDigit control) (by omega) read
    rwa [Char.ofNat_toNat] at unescaped
  · rw [written]
    simp [unescape, noBackslash, read]

theorem unescape_escape (cs : List Char) : unescape (escape cs) = some cs := by
  induction cs with
  | nil => rfl
  | cons c cs ih => exact unescape_escapeChar ih

/-! ### Numbers -/

/-- What may stand behind a value: nothing, a blank, a comma or the end of an array or an object. -/
def Stops (rest : List Char) : Prop :=
  ∀ c, rest.head? = some c → c ∈ [' ', '\n', '\t', '\r', ',', ']', '\x7d']

theorem Stops.cases {rest : List Char} (stops : Stops rest) :
    rest = [] ∨ ∃ c more, rest = c :: more ∧ c ∈ [' ', '\n', '\t', '\r', ',', ']', '\x7d'] := by
  cases rest with
  | nil => exact .inl rfl
  | cons c more => exact .inr ⟨c, more, rfl, stops c rfl⟩

theorem Stops.no_digit {rest : List Char} (stops : Stops rest) :
    rest.takeWhile isDigit = [] ∧ rest.dropWhile isDigit = rest := by
  rcases stops.cases with rfl | ⟨c, more, rfl, stop⟩
  · exact ⟨rfl, rfl⟩
  · have noDigit : isDigit c = false := by
      simp only [List.mem_cons, List.not_mem_nil, or_false] at stop
      rcases stop with rfl | rfl | rfl | rfl | rfl | rfl | rfl <;> rfl
    simp [noDigit]

theorem Stops.readFraction {rest : List Char} (stops : Stops rest) :
    readFraction rest = some ([], rest) := by
  rcases stops.cases with rfl | ⟨c, more, rfl, stop⟩
  · rfl
  · simp only [List.mem_cons, List.not_mem_nil, or_false] at stop
    rcases stop with rfl | rfl | rfl | rfl | rfl | rfl | rfl <;> rfl

theorem Stops.readExponent {rest : List Char} (stops : Stops rest) :
    readExponent rest = some ([], rest) := by
  rcases stops.cases with rfl | ⟨c, more, rfl, stop⟩
  · rfl
  · simp only [List.mem_cons, List.not_mem_nil, or_false] at stop
    rcases stop with rfl | rfl | rfl | rfl | rfl | rfl | rfl <;> rfl

theorem isDigit_of_mem_toDigits {n : Nat} {c : Char} (inside : c ∈ Nat.toDigits 10 n) :
    isDigit c = true := by
  have digit := Nat.isDigit_of_mem_toDigits (by decide) (by decide) inside
  simpa [isDigit, Char.isDigit, Char.le_def] using digit

theorem digitsValue_toDigits (n : Nat) : digitsValue (Nat.toDigits 10 n) = n := by
  have digit {d : Nat} (small : d < 10) : (Nat.digitChar d).toNat - '0'.toNat = d := by
    interval_cases d <;> rfl
  induction n using Nat.strongRecOn with
  | ind n ih =>
    rw [Nat.toDigits_eq_if (by decide)]
    split
    next small => simpa [digitsValue] using digit small
    next large =>
      have front : digitsValue (Nat.toDigits 10 (n / 10)) = n / 10 := ih _ (by omega)
      have last := digit (Nat.mod_lt n (by decide : 10 > 0))
      unfold digitsValue at front ⊢
      rw [List.foldl_append, front, List.foldl_cons, List.foldl_nil, last]
      omega

theorem toDigits_zero_or_front (n : Nat) :
    n = 0 ∧ Nat.toDigits 10 n = ['0'] ∨ ∃ d ds, d ≠ '0' ∧ Nat.toDigits 10 n = d :: ds := by
  induction n using Nat.strongRecOn with
  | ind n ih =>
    by_cases zero : n = 0
    · subst zero
      exact .inl ⟨rfl, rfl⟩
    · refine .inr ?_
      rw [Nat.toDigits_eq_if (by decide)]
      split
      next small =>
        refine ⟨_, [], ?_, rfl⟩
        interval_cases n <;> first | exact absurd rfl zero | decide
      next large =>
        rcases ih (n / 10) (by omega) with ⟨none, -⟩ | ⟨d, ds, front, written⟩
        · omega
        · exact ⟨d, ds ++ [(n % 10).digitChar], front, by rw [written]; rfl⟩

theorem readDigits_toDigits (n : Nat) {rest : List Char} (stops : Stops rest) :
    readDigits (Nat.toDigits 10 n ++ rest) = some (Nat.toDigits 10 n, rest) := by
  have all : ∀ c ∈ Nat.toDigits 10 n, isDigit c = true := fun _ => isDigit_of_mem_toDigits
  have some_digit : Nat.toDigits 10 n ≠ [] := Nat.toDigits_ne_nil
  unfold readDigits
  rw [List.takeWhile_append_of_pos all, List.dropWhile_append_of_pos all, stops.no_digit.1,
    stops.no_digit.2, List.append_nil]
  split
  next none => exact absurd none some_digit
  next => rfl

theorem readWhole_toDigits (n : Nat) {rest : List Char} (stops : Stops rest) :
    readWhole (Nat.toDigits 10 n ++ rest) = some (Nat.toDigits 10 n, rest) := by
  rcases toDigits_zero_or_front n with ⟨-, written⟩ | ⟨d, ds, noZero, written⟩
  · rw [written]
    rfl
  · have read := readDigits_toDigits n stops
    rw [written] at read ⊢
    rw [← read]
    exact readWhole.eq_2 _ fun rest same => noZero (List.cons.inj same).1

theorem digits_ofNat (n : Nat) : Json.digits n = Nat.toDigits 10 n := Nat.toList_repr

theorem digits_negSucc (n : Nat) : Json.digits (.negSucc n) = '-' :: Nat.toDigits 10 (n + 1) := by
  change ("-" ++ Nat.repr (n + 1)).toList = _
  rw [String.toList_append, Nat.toList_repr]
  rfl

theorem exists_toDigits_eq_cons (n : Nat) :
    ∃ d ds, isDigit d = true ∧ Nat.toDigits 10 n = d :: ds := by
  cases written : Nat.toDigits 10 n with
  | nil => exact absurd written Nat.toDigits_ne_nil
  | cons d ds => exact ⟨d, ds, isDigit_of_mem_toDigits (n := n) (by simp [written]), rfl⟩

theorem readNumber_digits (n : Int) {rest : List Char} (stops : Stops rest) :
    readNumber (Json.digits n ++ rest) = some (Json.digits n, rest) := by
  cases n with
  | ofNat n =>
    obtain ⟨d, ds, digit, written⟩ := exists_toDigits_eq_cons n
    have unsigned : d ≠ '-' := by
      rintro rfl
      exact absurd digit (by decide)
    have whole := readWhole_toDigits n stops
    rw [written] at whole
    rw [Int.ofNat_eq_natCast, digits_ofNat, written, List.cons_append]
    rw [List.cons_append] at whole
    simp [readNumber, unsigned, whole, stops.readFraction, stops.readExponent]
  | negSucc n =>
    rw [digits_negSucc]
    simp [readNumber, readWhole_toDigits (n + 1) stops, stops.readFraction, stops.readExponent]

theorem int?_digits (n : Int) : (number (Json.digits n)).int? = some n := by
  have all (n : Nat) : (Nat.toDigits 10 n).all isDigit = true :=
    List.all_eq_true.mpr fun _ => isDigit_of_mem_toDigits
  cases n with
  | ofNat n =>
    have unsigned (rest : List Char) : Nat.toDigits 10 n ≠ '-' :: rest := by
      intro signed
      have digit := isDigit_of_mem_toDigits (n := n) (signed ▸ List.mem_cons_self)
      exact absurd digit (by decide)
    rw [Int.ofNat_eq_natCast, digits_ofNat, int?.eq_2 _ unsigned]
    simp [all, digitsValue_toDigits]
  | negSucc n =>
    have noZero : Nat.toDigits 10 (n + 1) ≠ ['0'] := by
      intro zero
      have value := digitsValue_toDigits (n + 1)
      rw [zero] at value
      exact absurd value.symm n.succ_ne_zero
    rw [digits_negSucc, int?, all, digitsValue_toDigits, if_pos (by simpa using noZero)]
    rfl

end JsonDoc

/-! ### Values -/

namespace Json

open JsonDoc

mutual

/-- What is read of the text of a value. -/
def toDoc : Json → JsonDoc
  | .null => .null
  | .bool b => .bool b
  | .int n => .number (digits n)
  | .str s => .string (escape s.toList)
  | .arr items => .array (itemDocs items)
  | .obj members => .object (memberDocs members)

def itemDocs : List Json → List JsonDoc
  | [] => []
  | v :: rest => v.toDoc :: itemDocs rest

def memberDocs : List (String × Json) → List (List Char × JsonDoc)
  | [] => []
  | (name, v) :: rest => (escape name.toList, v.toDoc) :: memberDocs rest

end

theorem itemDocs_eq_map (items : List Json) : itemDocs items = items.map toDoc := by
  induction items with
  | nil => rfl
  | cons v rest ih => rw [itemDocs, ih, List.map_cons]

theorem memberDocs_eq_map (members : List (String × Json)) :
    memberDocs members = members.map fun (name, v) => (escape name.toList, v.toDoc) := by
  induction members with
  | nil => rfl
  | cons member rest ih => rw [memberDocs, ih, List.map_cons]

def Blanks (cs : List Char) : Prop := ∀ c ∈ cs, JsonDoc.isBlank c = true

mutual

/-- A text of a value. There may be blanks between the parts. -/
inductive Spells : Json → List Char → Prop where
  | null : Spells .null "null".toList
  | true : Spells (.bool true) "true".toList
  | false : Spells (.bool false) "false".toList
  | int (n : Int) : Spells (.int n) (digits n)
  | str (s : String) : Spells (.str s) (quoted s)
  | emptyArr : Spells (.arr []) ['[', ']']
  | arr {items : List Json} {text : List Char} (spelled : SpellsItems items text) :
      Spells (.arr items) ('[' :: text)
  | emptyObj : Spells (.obj []) ['\x7b', '\x7d']
  | obj {members : List (String × Json)} {text : List Char}
      (spelled : SpellsMembers members text) : Spells (.obj members) ('\x7b' :: text)

/-- A text of the items of an array up to its end. -/
inductive SpellsItems : List Json → List Char → Prop where
  | last {v : Json} {before text behind : List Char} (blank : Blanks before)
      (spelled : Spells v text) (blank' : Blanks behind) :
      SpellsItems [v] (before ++ text ++ behind ++ [']'])
  | more {v : Json} {rest : List Json} {before text texts : List Char} (blank : Blanks before)
      (spelled : Spells v text) (later : SpellsItems rest texts) :
      SpellsItems (v :: rest) (before ++ text ++ ',' :: texts)

/-- A text of the members of an object up to its end. -/
inductive SpellsMembers : List (String × Json) → List Char → Prop where
  | last {name : String} {v : Json} {before gap text behind : List Char} (blank : Blanks before)
      (blank' : Blanks gap) (spelled : Spells v text) (blank'' : Blanks behind) :
      SpellsMembers [(name, v)] (before ++ quoted name ++ ':' :: gap ++ text ++ behind ++ ['\x7d'])
  | more {name : String} {v : Json} {rest : List (String × Json)}
      {before gap text texts : List Char} (blank : Blanks before) (blank' : Blanks gap)
      (spelled : Spells v text) (later : SpellsMembers rest texts) :
      SpellsMembers ((name, v) :: rest)
        (before ++ quoted name ++ ':' :: gap ++ text ++ ',' :: texts)

end

theorem Blanks.nil : Blanks [] := fun _ none => absurd none List.not_mem_nil

theorem blanks_space : Blanks [' '] := by
  intro c inside
  rw [List.mem_singleton.mp inside]
  rfl

theorem blanks_newLine (level : Nat) : Blanks (newLine level) := by
  intro c inside
  rcases List.mem_cons.mp inside with rfl | space
  · rfl
  · rw [List.eq_of_mem_replicate space]
    rfl

mutual

theorem spells_compact : (v : Json) → Spells v v.compactChars
  | .null => .null
  | .bool true => .true
  | .bool false => .false
  | .int n => .int n
  | .str s => .str s
  | .arr [] => .emptyArr
  | .arr (v :: rest) => .arr (spells_compactItems (v :: rest) (List.cons_ne_nil v rest))
  | .obj [] => .emptyObj
  | .obj (member :: rest) => .obj (spells_compactMembers (member :: rest) (List.cons_ne_nil _ rest))

theorem spells_compactItems : (items : List Json) → items ≠ [] →
    SpellsItems items (compactItems items)
  | [], nonempty => absurd rfl nonempty
  | [v], _ => by
    have text : compactItems [v] = [] ++ v.compactChars ++ [] ++ [']'] := by simp [compactItems]
    rw [text]
    exact .last .nil (spells_compact v) .nil
  | v :: w :: rest, _ =>
    .more .nil (spells_compact v) (spells_compactItems (w :: rest) (List.cons_ne_nil w rest))

theorem spells_compactMembers : (members : List (String × Json)) → members ≠ [] →
    SpellsMembers members (compactMembers members)
  | [], nonempty => absurd rfl nonempty
  | [(name, v)], _ => by
    have text : compactMembers [(name, v)] =
        [] ++ quoted name ++ ':' :: [] ++ v.compactChars ++ [] ++ ['\x7d'] := by
      simp [compactMembers]
    rw [text]
    exact .last .nil .nil (spells_compact v) .nil
  | (name, v) :: member :: rest, _ => by
    have text : compactMembers ((name, v) :: member :: rest) = [] ++ quoted name ++ ':' :: [] ++
        v.compactChars ++ ',' :: compactMembers (member :: rest) := by
      simp [compactMembers]
    rw [text]
    exact .more .nil .nil (spells_compact v)
      (spells_compactMembers (member :: rest) (List.cons_ne_nil member rest))

end

mutual

theorem spells_pretty (level : Nat) : (v : Json) → Spells v (prettyChars level v)
  | .null => .null
  | .bool true => .true
  | .bool false => .false
  | .int n => .int n
  | .str s => .str s
  | .arr [] => .emptyArr
  | .arr (v :: rest) =>
    .arr (spells_prettyItems level rest (blanks_newLine (level + 1)) (spells_pretty (level + 1) v))
  | .obj [] => .emptyObj
  | .obj ((name, v) :: rest) => by
    have spelled := spells_prettyMembers level name rest (blanks_newLine (level + 1))
      (spells_pretty (level + 1) v)
    simpa [prettyChars] using Spells.obj spelled

/-- The first item, and then those behind it. -/
theorem spells_prettyItems (level : Nat) {v : Json} {before text : List Char} :
    (rest : List Json) → Blanks before → Spells v text →
      SpellsItems (v :: rest) (before ++ text ++ prettyItems level rest)
  | [], blank, spelled => by
    rw [prettyItems, ← List.append_assoc]
    exact .last blank spelled (blanks_newLine level)
  | _ :: rest, blank, spelled =>
    .more blank spelled
      (spells_prettyItems level rest (blanks_newLine (level + 1)) (spells_pretty (level + 1) _))

theorem spells_prettyMembers (level : Nat) (name : String) {v : Json} {before text : List Char} :
    (rest : List (String × Json)) → Blanks before → Spells v text →
      SpellsMembers ((name, v) :: rest)
        (before ++ quoted name ++ ':' :: [' '] ++ text ++ prettyMembers level rest)
  | [], blank, spelled => by
    rw [prettyMembers, ← List.append_assoc]
    exact .last blank blanks_space spelled (blanks_newLine level)
  | (name', w) :: rest, blank, spelled => by
    have later := spells_prettyMembers level name' rest (blanks_newLine (level + 1))
      (spells_pretty (level + 1) w)
    simpa [prettyMembers] using SpellsMembers.more blank blanks_space spelled later

end

/-! ### The reader -/

theorem skipBlank_append {before : List Char} (blank : Blanks before) (cs : List Char) :
    skipBlank (before ++ cs) = skipBlank cs :=
  List.dropWhile_append_of_pos blank

theorem skipBlank_cons {c : Char} (noBlank : isBlank c = false) (cs : List Char) :
    skipBlank (c :: cs) = c :: cs := by
  simp [skipBlank, noBlank]

theorem skipBlank_skipBlank (cs : List Char) : skipBlank (skipBlank cs) = skipBlank cs :=
  List.dropWhile_idempotent _ _

theorem readValue_skipBlank (steps : Nat) (cs : List Char) :
    readValue steps (skipBlank cs) = readValue steps cs := by
  cases steps with
  | zero => rfl
  | succ steps => simp only [readValue, skipBlank_skipBlank]

theorem readItems_skipBlank (steps : Nat) (cs : List Char) :
    readItems steps (skipBlank cs) = readItems steps cs := by
  cases steps with
  | zero => rfl
  | succ steps => simp only [readItems, readValue_skipBlank]

theorem readMembers_skipBlank (steps : Nat) (cs : List Char) :
    readMembers steps (skipBlank cs) = readMembers steps cs := by
  cases steps with
  | zero => rfl
  | succ steps => simp only [readMembers, skipBlank_skipBlank]

theorem digits_front (n : Int) :
    ∃ c more, digits n = c :: more ∧ (c = '-' ∨ isDigit c = Bool.true) := by
  cases n with
  | ofNat n =>
    obtain ⟨d, ds, digit, written⟩ := exists_toDigits_eq_cons n
    exact ⟨d, ds, (digits_ofNat n).trans written, .inr digit⟩
  | negSucc n => exact ⟨_, _, digits_negSucc n, .inl rfl⟩

/-- A number starts with a character that starts no other value, is no blank and closes nothing. -/
theorem number_front {c : Char} (front : c = '-' ∨ isDigit c = Bool.true) :
    isBlank c = Bool.false ∧ c ∉ ['n', 't', 'f', '"', '[', ']', '\x7b'] := by
  rcases front with rfl | digit
  · decide
  · constructor
    · by_contra blank
      simp only [isBlank, Bool.not_eq_false, Bool.or_eq_true, beq_iff_eq] at blank
      rcases blank with ((rfl | rfl) | rfl) | rfl <;> exact absurd digit (by decide)
    · intro other
      simp only [List.mem_cons, List.not_mem_nil, or_false] at other
      rcases other with rfl | rfl | rfl | rfl | rfl | rfl | rfl <;> exact absurd digit (by decide)

/-- A value starts with a character that is no blank and closes nothing. -/
theorem Spells.front {v : Json} {text : List Char} (spelled : Spells v text) :
    ∃ c more, text = c :: more ∧ isBlank c = Bool.false ∧ c ≠ ']' := by
  cases spelled with
  | int n =>
    obtain ⟨c, more, written, front⟩ := digits_front n
    have other := (number_front front).2
    simp only [List.mem_cons, not_or] at other
    exact ⟨c, more, written, (number_front front).1, other.2.2.2.2.2.1⟩
  | _ => exact ⟨_, _, rfl, rfl, by decide⟩

theorem SpellsItems.front {items : List Json} {text : List Char} (spelled : SpellsItems items text)
    (rest : List Char) : ∃ c more, skipBlank (text ++ rest) = c :: more ∧ c ≠ ']' := by
  have start {v : Json} {before text : List Char} (blank : Blanks before) (spelled : Spells v text)
      (behind : List Char) :
      ∃ c more, skipBlank (before ++ text ++ behind) = c :: more ∧ c ≠ ']' := by
    obtain ⟨c, more, rfl, noBlank, noEnd⟩ := spelled.front
    refine ⟨c, more ++ behind, ?_, noEnd⟩
    rw [List.append_assoc, skipBlank_append blank, List.cons_append, skipBlank_cons noBlank]
  cases spelled with
  | last blank spelled _ =>
    simp only [List.append_assoc] at start ⊢
    exact start blank spelled _
  | more blank spelled _ =>
    simp only [List.append_assoc] at start ⊢
    exact start blank spelled _

theorem SpellsMembers.front {members : List (String × Json)} {text : List Char}
    (spelled : SpellsMembers members text) (rest : List Char) :
    ∃ more, skipBlank (text ++ rest) = '"' :: more := by
  cases spelled with
  | last blank _ _ _ =>
    simp only [List.append_assoc, skipBlank_append blank]
    exact ⟨_, rfl⟩
  | more blank _ _ _ =>
    simp only [List.append_assoc, skipBlank_append blank]
    exact ⟨_, rfl⟩

theorem stops_cons (c : Char) (cs : List Char) (stop : c ∈ [',', ']', '\x7d']) :
    Stops (c :: cs) := by
  rintro _ ⟨⟩
  exact List.mem_append_right [' ', '\n', '\t', '\r'] stop

theorem Blanks.stops {behind cs : List Char} (blank : Blanks behind) (stops : Stops cs) :
    Stops (behind ++ cs) := by
  cases behind with
  | nil => exact stops
  | cons c more =>
    rintro _ ⟨⟩
    have isBlank := blank c List.mem_cons_self
    simp only [JsonDoc.isBlank, Bool.or_eq_true, beq_iff_eq] at isBlank
    rcases isBlank with ((rfl | rfl) | rfl) | rfl <;> decide

mutual

theorem Spells.read {v : Json} {text : List Char} (spelled : Spells v text)
    {before rest : List Char} (blank : Blanks before) (stops : Stops rest) {steps : Nat}
    (enough : text.length < steps) :
    readValue steps (before ++ text ++ rest) = some (v.toDoc, rest) := by
  obtain _ | steps := steps
  · exact absurd enough (Nat.not_lt_zero _)
  rw [← readValue_skipBlank, List.append_assoc, skipBlank_append blank, readValue_skipBlank]
  cases spelled with
  | null => rfl
  | true => rfl
  | false => rfl
  | int n =>
    have number := readNumber_digits n stops
    obtain ⟨c, more, written, front⟩ := digits_front n
    obtain ⟨noBlank, other⟩ := number_front front
    simp only [List.mem_cons, List.not_mem_nil, or_false, not_or] at other
    rw [toDoc]
    rw [written, List.cons_append] at number ⊢
    simp [readValue, skipBlank_cons noBlank, other, number]
  | str s =>
    have body := readBody_escape s.toList rest
    have shape : quoted s ++ rest = '"' :: (escape s.toList ++ '"' :: rest) := by simp [quoted]
    rw [shape, readValue, skipBlank_cons rfl]
    simp [body, toDoc]
  | emptyArr => rfl
  | arr items =>
    obtain ⟨c, more, start, noEnd⟩ := items.front rest
    have read := items.read rest (Nat.lt_of_succ_lt_succ enough)
    rw [← readItems_skipBlank, start] at read
    rw [List.cons_append, readValue, skipBlank_cons rfl]
    simp [start, noEnd, read, toDoc]
  | emptyObj => rfl
  | obj members =>
    obtain ⟨more, start⟩ := members.front rest
    have read := members.read rest (Nat.lt_of_succ_lt_succ enough)
    rw [← readMembers_skipBlank, start] at read
    rw [List.cons_append, readValue, skipBlank_cons rfl]
    simp [start, read, toDoc]

theorem SpellsItems.read {items : List Json} {text : List Char} (spelled : SpellsItems items text)
    (rest : List Char) {steps : Nat} (enough : text.length < steps) :
    readItems steps (text ++ rest) = some (itemDocs items, rest) := by
  obtain _ | steps := steps
  · exact absurd enough (Nat.not_lt_zero _)
  cases spelled with
  | @last v before text behind blank spelled blank' =>
    have shape : before ++ text ++ behind ++ [']'] ++ rest =
        before ++ text ++ (behind ++ ']' :: rest) := by simp
    have short : text.length < steps := by
      simp only [List.length_append, List.length_singleton] at enough
      omega
    have read := spelled.read blank (blank'.stops (stops_cons ']' rest (by decide))) short
    rw [shape, readItems, read]
    simp [skipBlank_append blank', skipBlank_cons, isBlank, itemDocs]
  | @more v items before text texts blank spelled later =>
    have shape : before ++ text ++ ',' :: texts ++ rest =
        before ++ text ++ ',' :: (texts ++ rest) := by simp
    simp only [List.length_append, List.length_cons] at enough
    have read := spelled.read blank (stops_cons ',' (texts ++ rest) (by decide))
      (by omega : text.length < steps)
    have readLater := later.read rest (by omega : texts.length < steps)
    rw [shape, readItems, read]
    simp [skipBlank_cons, isBlank, readLater, itemDocs]

theorem SpellsMembers.read {members : List (String × Json)} {text : List Char}
    (spelled : SpellsMembers members text) (rest : List Char) {steps : Nat}
    (enough : text.length < steps) :
    readMembers steps (text ++ rest) = some (memberDocs members, rest) := by
  obtain _ | steps := steps
  · exact absurd enough (Nat.not_lt_zero _)
  rw [← readMembers_skipBlank]
  have colon : isBlank ':' = Bool.false := rfl
  cases spelled with
  | @last name v before gap text behind blank blank' spelled blank'' =>
    have shape : before ++ quoted name ++ ':' :: gap ++ text ++ behind ++ ['\x7d'] ++ rest =
        before ++ '"' :: (escape name.toList ++ '"' :: ':' :: (gap ++ text ++
          (behind ++ '\x7d' :: rest))) := by simp [quoted]
    simp only [List.length_append, List.length_cons] at enough
    have read := spelled.read blank' (blank''.stops (stops_cons '\x7d' rest (by decide)))
      (by omega : text.length < steps)
    have key := readBody_escape name.toList (':' :: (gap ++ text ++ (behind ++ '\x7d' :: rest)))
    rw [shape, skipBlank_append blank, skipBlank_cons rfl, readMembers, skipBlank_cons rfl]
    simp only [key, skipBlank_cons colon, read, Option.bind_eq_bind, Option.bind_some]
    simp [skipBlank_append blank'', skipBlank_cons, isBlank, memberDocs]
  | @more name v members before gap text texts blank blank' spelled later =>
    have shape : before ++ quoted name ++ ':' :: gap ++ text ++ ',' :: texts ++ rest =
        before ++ '"' :: (escape name.toList ++ '"' :: ':' :: (gap ++ text ++
          ',' :: (texts ++ rest))) := by simp [quoted]
    simp only [List.length_append, List.length_cons] at enough
    have read := spelled.read blank' (stops_cons ',' (texts ++ rest) (by decide))
      (by omega : text.length < steps)
    have readLater := later.read rest (by omega : texts.length < steps)
    have key := readBody_escape name.toList (':' :: (gap ++ text ++ ',' :: (texts ++ rest)))
    rw [shape, skipBlank_append blank, skipBlank_cons rfl, readMembers, skipBlank_cons rfl]
    simp only [key, skipBlank_cons colon, read, Option.bind_eq_bind, Option.bind_some]
    simp [skipBlank_cons, isBlank, readLater, memberDocs]

end

/-- Every text of a value is read as what the value is. -/
theorem Spells.ofChars? {v : Json} {text : List Char} (spelled : Spells v text) :
    JsonDoc.ofChars? text = some v.toDoc := by
  have read := spelled.read .nil (fun _ nothing => nomatch nothing : Stops [])
    (Nat.lt_succ_self text.length)
  rw [List.nil_append, List.append_nil] at read
  simp [JsonDoc.ofChars?, read, skipBlank]

theorem ofText?_compact (v : Json) : JsonDoc.ofText? v.compact = some v.toDoc := by
  rw [JsonDoc.ofText?, compact, String.toList_ofList]
  exact (spells_compact v).ofChars?

theorem ofText?_pretty (v : Json) : JsonDoc.ofText? v.pretty = some v.toDoc := by
  rw [JsonDoc.ofText?, pretty, String.toList_ofList]
  exact (spells_pretty 0 v).ofChars?

end Json

end Gradual
