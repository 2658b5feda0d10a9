/-
# `json.dumps`

Python values and the text that `json.dumps(.., sort_keys=True, separators=(",", ":"))` writes
for them.  A tuple is written as a list, and a key that is not a text as a text; the keys are
sorted before they are.  Keys of different kinds cannot be sorted, and what is no JSON value is
refused unless `default=str` is given.
-/
import Kripto.Python.Text
import Mathlib.Algebra.Order.Ring.Unbundled.Rat

namespace Python

/-! ## 1. Values -/

/-- A key of a dictionary.  A number is a truth value, an integer or a finite float, with its
text; `other` is of a kind that JSON refuses. -/
inductive Key
  | none
  | number (value : ℚ) (text : String)
  | str (s : Text)
  | other
  deriving DecidableEq

/-- A value.  The keys of a dictionary are distinct; a float is its text; `other` is what is no
JSON value, with what `str` makes of it. -/
inductive PyValue
  | none
  | bool (b : Bool)
  | int (n : ℤ)
  | float (repr : String)
  | str (s : Text)
  | list (items : List PyValue)
  | tuple (items : List PyValue)
  | dict (items : List (Key × PyValue))
  | other (shown : Text)

/-- What a dictionary is made of. -/
abbrev Dict : Type := List (Key × PyValue)

/-- `d.get(name)`. -/
def dictGet (d : Dict) (name : String) : PyValue := (d.lookup (.str (Text.of name))).getD .none

/-- `v == text`. -/
def PyValue.isText (v : PyValue) (text : Text) : Bool :=
  match v with
  | .str s => s = text
  | _ => false

@[simp] theorem PyValue.isText_iff {v : PyValue} {text : Text} :
    v.isText text = true ↔ v = .str text := by
  cases v <;> simp [PyValue.isText]

/-- The options of a call. -/
structure DumpOptions where
  ensureAscii : Bool := true
  defaultStr : Bool := false

/-! ## 2. Texts in quotes -/

/-- The digits of `\uXXXX`. -/
def hex4 (n : ℕ) : List Char :=
  [Nat.digitChar (n / 4096 % 16), Nat.digitChar (n / 256 % 16), Nat.digitChar (n / 16 % 16),
    Nat.digitChar (n % 16)]

def unicodeEscape (n : ℕ) : Text := ('\\' :: 'u' :: hex4 n).map .scalar

/-- A character beyond the 16-bit ones is written as two escapes. -/
def asciiEscape (n : ℕ) : Text :=
  if n < 0x10000 then unicodeEscape n
  else unicodeEscape (0xd800 + (n - 0x10000) / 0x400) ++
    unicodeEscape (0xdc00 + (n - 0x10000) % 0x400)

/-- The characters that have an escape of their own. -/
def ESCAPE_DCT : List (Char × String) :=
  [('\\', "\\\\"), ('"', "\\\""), ('\x08', "\\b"), ('\x0c', "\\f"), ('\n', "\\n"),
    ('\r', "\\r"), ('\t', "\\t")]

/-- What a lookup finds is in the list. -/
theorem mem_of_lookup {α β : Type} [BEq α] [LawfulBEq α] {l : List (α × β)} {a : α} {b : β}
    (h : l.lookup a = some b) : (a, b) ∈ l := by
  obtain ⟨before, after, rfl, -⟩ := List.lookup_eq_some_iff.mp h
  exact List.mem_append_right _ List.mem_cons_self

def escapeChar (ensureAscii : Bool) (c : Char) : Text :=
  match ESCAPE_DCT.lookup c with
  | some escaped => Text.of escaped
  | none =>
    if c.toNat < 0x20 then unicodeEscape c.toNat
    else if ensureAscii = true ∧ 0x7e < c.toNat then asciiEscape c.toNat
    else [.scalar c]

def escape (ensureAscii : Bool) : CodePoint → Text
  | .scalar c => escapeChar ensureAscii c
  | .surrogate n => if ensureAscii then unicodeEscape (0xd800 + n) else [.surrogate n]

/-- A text in quotes. -/
def quote (ensureAscii : Bool) (s : Text) : Text :=
  .scalar '"' :: s.flatMap (escape ensureAscii) ++ [.scalar '"']

theorem encodable_unicodeEscape (n : ℕ) : (unicodeEscape n).Encodable := by
  intro c hc
  obtain ⟨ch, -, rfl⟩ := List.mem_map.mp hc
  rfl

theorem encodable_asciiEscape (n : ℕ) : (asciiEscape n).Encodable := by
  unfold asciiEscape
  split
  · exact encodable_unicodeEscape n
  · exact (encodable_unicodeEscape _).append (encodable_unicodeEscape _)

theorem encodable_escapeChar (ensureAscii : Bool) (c : Char) :
    (escapeChar ensureAscii c).Encodable := by
  unfold escapeChar
  split
  · exact Text.encodable_of _
  · split_ifs
    · exact encodable_unicodeEscape _
    · exact encodable_asciiEscape _
    · exact Text.Encodable.scalar_cons c (Text.encodable_of "")

/-- A text that can be encoded can be encoded in quotes. -/
theorem encodable_quote {ensureAscii : Bool} {s : Text} (h : s.Encodable) :
    (quote ensureAscii s).Encodable := by
  obtain ⟨s, rfl⟩ := h.exists_of
  have hbody : Text.Encodable ((Text.of s).flatMap (escape ensureAscii)) := by
    intro c hc
    obtain ⟨c', hc', hc⟩ := List.mem_flatMap.mp hc
    obtain ⟨ch, -, rfl⟩ := List.mem_map.mp hc'
    exact encodable_escapeChar ensureAscii ch c hc
  exact (hbody.scalar_cons '"').append (Text.encodable_of "\"")

/-- With `ensure_ascii` every text can be encoded in quotes. -/
theorem encodable_quote_ascii (s : Text) : (quote true s).Encodable := by
  have hbody : Text.Encodable (s.flatMap (escape true)) := by
    intro c hc
    obtain ⟨c', -, hc⟩ := List.mem_flatMap.mp hc
    cases c' with
    | scalar ch => exact encodable_escapeChar true ch c hc
    | surrogate n => exact encodable_unicodeEscape _ c hc
  exact (hbody.scalar_cons '"').append (Text.encodable_of "\"")

/-! ## 3. Keys -/

/-- What `json.dumps` raises, and what the encoding of its text does. -/
inductive DumpError
  | typeError
  | unicodeEncodeError
  deriving DecidableEq

def Key.text? : Key → Option Text
  | .str s => some s
  | _ => Option.none

def Key.number? : Key → Option (ℚ × String)
  | .number value text => some (value, text)
  | _ => Option.none

variable {α : Type}

/-- The entries of a dictionary in the order of their keys, and the keys as texts. -/
def sortKeys (items : List (Key × α)) : Except DumpError (List (Text × α)) :=
  match items.mapM fun e => e.1.text?.map fun s => (s, e.2) with
  | some texts => .ok (texts.insertionSort fun e e' => e.1.le e'.1)
  | none =>
    match items.mapM fun e => e.1.number?.map fun x => (x, e.2) with
    | some numbers => .ok <|
        (numbers.insertionSort fun e e' => e.1.1 ≤ e'.1.1).map fun e => (Text.of e.1.2, e.2)
    | none =>
      match items with
      | [(.none, v)] => .ok [(Text.of "null", v)]
      | _ => .error .typeError

/-- Keys that are texts can be sorted. -/
theorem sortKeys_texts (texts : List (Text × α)) :
    sortKeys (texts.map fun e => (Key.str e.1, e.2)) =
      .ok (texts.insertionSort fun e e' => e.1.le e'.1) := by
  have htexts : ((texts.map fun e => (Key.str e.1, e.2)).mapM fun e =>
      e.1.text?.map fun s => (s, e.2)) = some texts := by
    induction texts with
    | nil => rfl
    | cons e texts ih =>
      rw [List.map_cons, List.mapM_cons, ih]
      rfl
  simp only [sortKeys, htexts]

/-! ## 4. Values as texts -/

/-- The parts with commas between them. -/
def commas : List Text → Text
  | [] => []
  | [part] => part
  | part :: rest => part ++ .scalar ',' :: commas rest

def writeList (parts : List Text) : Text := Text.of "[" ++ commas parts ++ Text.of "]"

def writeDict (ensureAscii : Bool) (fields : List (Text × Text)) : Text :=
  Text.of "\x7b" ++ commas (fields.map fun e => quote ensureAscii e.1 ++ .scalar ':' :: e.2) ++
    Text.of "\x7d"

theorem encodable_commas {parts : List Text} (h : ∀ part ∈ parts, part.Encodable) :
    (commas parts).Encodable := by
  induction parts with
  | nil => exact Text.encodable_of ""
  | cons part rest ih =>
    have hrest := ih fun part hpart => h part (List.mem_cons_of_mem _ hpart)
    have hpart := h part List.mem_cons_self
    cases rest with
    | nil => exact hpart
    | cons next rest => exact hpart.append (hrest.scalar_cons ',')

theorem encodable_writeList {parts : List Text} (h : ∀ part ∈ parts, part.Encodable) :
    (writeList parts).Encodable :=
  ((Text.encodable_of _).append (encodable_commas h)).append (Text.encodable_of _)

theorem encodable_writeDict {ensureAscii : Bool} {fields : List (Text × Text)}
    (h : ∀ e ∈ fields, e.1.Encodable ∧ e.2.Encodable) :
    (writeDict ensureAscii fields).Encodable := by
  refine ((Text.encodable_of _).append (encodable_commas ?_)).append (Text.encodable_of _)
  intro part hpart
  obtain ⟨e, he, rfl⟩ := List.mem_map.mp hpart
  exact (encodable_quote (h e he).1).append ((h e he).2.scalar_cons ':')

mutual

/-- `json.dumps(v, sort_keys=True, separators=(",", ":"), ..)`. -/
def PyValue.dumps (options : DumpOptions) : PyValue → Except DumpError Text
  | .none => .ok (Text.of "null")
  | .bool b => .ok (Text.of (if b then "true" else "false"))
  | .int n => .ok (Text.of (toString n))
  | .float repr => .ok (Text.of repr)
  | .str s => .ok (quote options.ensureAscii s)
  | .list items => return writeList (← dumpsItems options items)
  | .tuple items => return writeList (← dumpsItems options items)
  | .dict items => do
    let fields ← sortKeys (← dumpsFields options items)
    return writeDict options.ensureAscii fields
  | .other shown =>
    if options.defaultStr then .ok (quote options.ensureAscii shown) else .error .typeError

def dumpsItems (options : DumpOptions) : List PyValue → Except DumpError (List Text)
  | [] => .ok []
  | v :: items => return (← v.dumps options) :: (← dumpsItems options items)

def dumpsFields (options : DumpOptions) : Dict → Except DumpError (List (Key × Text))
  | [] => .ok []
  | (k, v) :: items => return (k, ← v.dumps options) :: (← dumpsFields options items)

end

/-- `json.dumps(v, sort_keys=True, separators=(",", ":"), ..).encode("utf-8")`. -/
def PyValue.bytes (options : DumpOptions) (v : PyValue) : Except DumpError String := do
  match (← v.dumps options).encode with
  | .some s => return s
  | .none => .error .unicodeEncodeError

/-- `hashlib.sha256(text.encode("utf-8")).hexdigest()`. -/
class Hashlib where
  sha256 : String → String

/-- A digest of 64 characters that tells apart texts with different beginnings. -/
@[reducible] def beginnings : Hashlib :=
  ⟨fun text => String.ofList ((text.toList ++ List.replicate 64 '0').take 64)⟩

theorem length_beginnings (text : String) : (beginnings.sha256 text).length = 64 := by
  change (String.ofList _).length = 64
  simp

end Python
