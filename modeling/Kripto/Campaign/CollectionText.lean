/-
# The collection as text

`load_collection` and the appends of `OnDisk.lean` over the text of the file: the lines that a
reader goes through, and the text that `_persist_event` writes behind them.  A crash can leave any
beginning of it.

* `fileOf_torn`: a beginning of a record's text makes the last line one that is no JSON;
* `failsClosed_of_record`: so the file is not loaded any more, and nothing is appended to it.
-/
import Kripto.Campaign.OnDisk
import Kripto.Python.Cut
import Kripto.Python.Reload

namespace Kripto.Campaign.CollectionText

open Effect Python OnDisk

/-! ## 1. Reading -/

/-- An object of values and keys that can be encoded. -/
def encodedFields (fields : List (Text × Option Json)) : Option Payload :=
  fields.mapM fun e => return (← e.1.encode, ← e.2)

mutual

/-- A tree as a JSON value, if its texts can be encoded. -/
def ofTree : JsonTree → Option Json
  | .null => some .null
  | .bool b => some (.bool b)
  | .int n => some (.int n)
  | .float repr => some (.float repr)
  | .str s => s.encode.map .str
  | .list items => (ofTrees items).map .arr
  | .dict fields => (encodedFields (dictOf (ofFields fields))).map .obj

def ofTrees : List JsonTree → Option (List Json)
  | [] => some []
  | j :: items => return (← ofTree j) :: (← ofTrees items)

def ofFields : List (Text × JsonTree) → List (Text × Option Json)
  | [] => []
  | (k, j) :: fields => (k, ofTree j) :: ofFields fields

end

/-- The row of an object.  What stands under the mark is written over; what else cannot be encoded
`_record_hash` refuses. -/
def rowOf (fields : List (Text × JsonTree)) : Option Payload :=
  encodedFields ((dictOf (ofFields fields)).filter fun e => e.1 ≠ Text.of ATTESTATION_MARK)

section Reading

variable [Loads.PyFloatRepr]

/-- A line of the file, as `load_collection` reads it. -/
def lineOf (line : Text) : Line :=
  if Loads.blank line then .blank
  else match Loads.read line with
    | none => .invalid
    | some (.dict fields) => (rowOf fields).elim .invalid Line.record
    | some j => (ofTree j).elim .invalid .json

def fileOf (text : Text) : File := (text.linesAt universalNewlines).map lineOf

/-! ## 2. Writing -/

variable [PyRuntime] [CollectionEncoding] [PythonEncoding]

/-- `record["record_sha256"] = _record_hash(record)`, and the text of the record. -/
def hashedText (record : Record) : Except Exc (Record × Text) := do
  let hashed := record ++ [("record_sha256", .str (Text.of (← OnDisk.recordHash record)))]
  match hashed.toValue.dumps {} with
  | .ok text => return (hashed, text)
  | .error e => .error (ofDumpError e)

/-- `_persist_event`, if there is a record to persist: what it returns, and the text it leaves. -/
def persistEvent (text : Text) (record : Except Exc Record) : Except Exc Record × Text :=
  match record >>= hashedText with
  | .error e => (.error e, text)
  | .ok (hashed, line) => (.ok hashed, text ++ (line ++ [newline]))

/-- One of the two appends. -/
def run (a : Append) (text : Text) (now : ℤ) : Except Exc Record × Text :=
  persistEvent text (a.record (fileOf text) now)

/-! ## 3. A torn record -/

variable {a : Append} {text line p w : Text} {record hashed : Record} {row : Payload} {now : ℤ}
  {rows : List LoadedRow} {telemetryKey : Option String} {expected : Expected}

omit [Loads.PyFloatRepr] [PyRuntime] [CollectionEncoding] [PythonEncoding] in
theorem dict_of_ofTree {j : JsonTree} (h : ofTree j = some (.obj row)) :
    ∃ fields, j = .dict fields := by
  cases j with
  | dict fields => exact ⟨fields, rfl⟩
  | str s =>
    obtain ⟨_, -, heq⟩ := Option.map_eq_some_iff.mp h
    exact nomatch heq
  | list items =>
    obtain ⟨_, -, heq⟩ := Option.map_eq_some_iff.mp h
    exact nomatch heq
  | _ => exact nomatch h

omit [PyRuntime] [CollectionEncoding] [PythonEncoding] in
/-- The line of a row is an object. -/
theorem read_of_record (h : lineOf line = .record row) :
    ∃ fields, Loads.read line = some (.dict fields) := by
  unfold lineOf at h
  split_ifs at h with hblank
  split at h
  · exact nomatch h
  · next fields hread => exact ⟨fields, hread⟩
  · next j hdict hread =>
    cases htree : ofTree j with
    | none =>
      rw [htree] at h
      exact nomatch h
    | some v =>
      rw [htree] at h
      obtain rfl := Line.json.inj h
      obtain ⟨fields, rfl⟩ := dict_of_ofTree htree
      exact ⟨fields, hread⟩

omit [PyRuntime] [CollectionEncoding] [PythonEncoding] in
theorem lineOf_invalid (hblank : Loads.blank line = false) (hread : Loads.read line = none) :
    lineOf line = .invalid := by
  rw [lineOf, hblank, if_neg Bool.false_ne_true, hread]

omit [PythonEncoding] in
/-- The lines of a file that is loaded are records. -/
theorem records_of_load (h : loadCollection (fileOf text) telemetryKey now expected = .ok rows) :
    ∀ line ∈ fileOf text, ∃ row, line = .record row := by
  obtain ⟨st, hst, -⟩ := loadCollection_eq_ok h
  rw [(loading_of_loadRows hst).file]
  intro line hline
  obtain ⟨row, -, rfl⟩ := List.mem_map.mp hline
  exact ⟨row, rfl⟩

omit [PyRuntime] [CollectionEncoding] [PythonEncoding] in
/-- **A torn record** is a last line that is no JSON: by itself behind what was there, or at the
end of what was the last line. -/
theorem fileOf_torn (hrecords : ∀ line ∈ fileOf text, ∃ row, line = .record row)
    (hobject : Loads.ObjectText w) (hpre : p <+: w) (hne : p ≠ []) (hcut : p ≠ w) :
    ∃ lines, fileOf (text ++ p) = lines ++ [.invalid] ∧
      (text.Ended universalNewlines → lines = fileOf text) := by
  have hunended := (hobject.printable.beginning hpre).unended_universalNewlines
  rcases linesAt_append rfl hunended hne text with ⟨-, hlines⟩ |
    ⟨hended, lines, line, hlines, happend⟩
  · have hinvalid : lineOf ([] ++ p) = .invalid :=
      lineOf_invalid (hobject.braced.not_blank hpre hne []) (hobject.torn hpre hne hcut (.inl rfl))
    refine ⟨fileOf text, ?_, fun _ => rfl⟩
    rw [fileOf, hlines, List.map_append, List.map_singleton, ← hinvalid]
    rfl
  · have hmem : lineOf line ∈ fileOf text := by
      rw [fileOf, hlines, List.map_append]
      exact List.mem_append_right _ List.mem_cons_self
    obtain ⟨row, hrow⟩ := hrecords _ hmem
    have hinvalid : lineOf (line ++ p) = .invalid :=
      lineOf_invalid (hobject.braced.not_blank hpre hne line)
        (hobject.torn hpre hne hcut (.inr (read_of_record hrow)))
    refine ⟨lines.map lineOf, ?_, fun h => absurd h hended⟩
    rw [fileOf, happend, List.map_append, List.map_singleton, hinvalid]

omit [Loads.PyFloatRepr] in
theorem hashedText_eq_ok (h : hashedText record = .ok (hashed, line)) :
    hashed.toValue.dumps {} = .ok line := by
  obtain ⟨digest, -, h⟩ := bind_eq_ok_iff.mp h
  dsimp only at h
  split at h
  · next text htext =>
    obtain ⟨rfl, rfl⟩ := Prod.mk.inj (Except.ok.inj h)
    exact htext
  · exact nomatch h

/-- What is about to be written is an object, behind records. -/
theorem objectText_of_record (h : a.record (fileOf text) now >>= hashedText = .ok (hashed, line))
    (hfloats : hashed.toValue.FloatsRead) :
    (∀ line ∈ fileOf text, ∃ row, line = .record row) ∧ Loads.ObjectText line := by
  obtain ⟨record, hrecord, hhashed⟩ := bind_eq_ok_iff.mp h
  obtain ⟨rows, hload⟩ := Append.load_of_record hrecord
  exact ⟨records_of_load hload, Loads.objectText_dumps (hashedText_eq_ok hhashed) hfloats⟩

/-- **Nothing is appended** to a file that is not loaded. -/
theorem run_of_not_load
    (h : ∀ rows, loadCollection (fileOf text) a.loadKey now ≠ .ok rows) :
    ∃ e, run a text now = (.error e, text) := by
  rw [run, persistEvent]
  cases hrecord : a.record (fileOf text) now with
  | error e => exact ⟨e, rfl⟩
  | ok record =>
    obtain ⟨rows, hload⟩ := Append.load_of_record hrecord
    exact absurd hload (h rows)

/-! ## 4. What a crash leaves -/

/-- What the beginning of a record does to a file. -/
structure FailsClosed (text p : Text) : Prop where
  untouched : p = [] → fileOf (text ++ p) = fileOf text ∧
    ∀ a now, run a (text ++ p) now = run a text now
  kept : p ≠ [] → text.Ended universalNewlines → fileOf (text ++ p) = fileOf text ++ [.invalid]
  notLoaded : p ≠ [] → ∀ telemetryKey now expected rows,
    loadCollection (fileOf (text ++ p)) telemetryKey now expected ≠ .ok rows
  refused : p ≠ [] → ∀ a now, ∃ e, run a (text ++ p) now = (.error e, text ++ p)

/-- **A torn record** is not passed over, and the rows before it are not touched. -/
theorem failsClosed_of_record
    (h : a.record (fileOf text) now >>= hashedText = .ok (hashed, line))
    (hfloats : hashed.toValue.FloatsRead) (hpre : p <+: line) (hcut : p ≠ line) :
    FailsClosed text p := by
  obtain ⟨hrecords, hobject⟩ := objectText_of_record h hfloats
  have htorn (hne : p ≠ []) := fileOf_torn hrecords hobject hpre hne hcut
  have hload : p ≠ [] → ∀ telemetryKey now expected rows,
      loadCollection (fileOf (text ++ p)) telemetryKey now expected ≠ .ok rows := by
    intro hne telemetryKey now expected rows
    obtain ⟨lines, hlines, -⟩ := htorn hne
    rw [hlines]
    exact not_load_invalid lines
  refine ⟨?_, ?_, hload, fun hne a now => run_of_not_load (hload hne a.loadKey now {})⟩
  · rintro rfl
    rw [List.append_nil]
    exact ⟨rfl, fun _ _ => rfl⟩
  · intro hne hended
    obtain ⟨lines, hlines, hkept⟩ := htorn hne
    rw [hlines, hkept hended]

end Reading

/-! ## 5. Rows of texts and numbers -/

/-- Its text is in ASCII, if it is one, and it holds no other values and is no float. -/
def Simple : Json → Prop
  | .str s => isAscii s
  | .float _ | .arr _ | .obj _ => False
  | _ => True

instance : DecidablePred Simple
  | .str s => inferInstanceAs (Decidable (isAscii s))
  | .null | .bool _ | .int _ => .isTrue trivial
  | .float _ | .arr _ | .obj _ => .isFalse id

/-- The tree of a simple value. -/
def simpleTree : Json → JsonTree
  | .bool b => .bool b
  | .int n => .int n
  | .str s => .str (Text.of s)
  | _ => .null

def rowTree (row : Payload) : JsonTree :=
  .dict (row.map fun e => (Text.of e.1, simpleTree e.2))

theorem joined_of_isAscii {s : String} (h : isAscii s) : (Text.of s).joined = Text.of s := by
  refine Text.joined_of_ascii fun c hc => ?_
  obtain ⟨ch, hch, rfl⟩ := List.mem_map.mp hc
  exact h ch hch

theorem joined_simpleTree {v : Json} (h : Simple v) : (simpleTree v).joined = simpleTree v := by
  cases v with
  | str s => exact congrArg JsonTree.str (joined_of_isAscii h)
  | _ => rfl

theorem ofTree_simpleTree {v : Json} (h : Simple v) : ofTree (simpleTree v) = some v := by
  cases v with
  | str s => rw [simpleTree, ofTree, Text.encode_of, Option.map_some]
  | float _ => exact h.elim
  | arr _ => exact h.elim
  | obj _ => exact h.elim
  | _ => rfl

theorem floats_simpleTree (v : Json) : (simpleTree v).floats = [] := by
  cases v <;> rfl

theorem ofFields_eq (fields : List (Text × JsonTree)) :
    ofFields fields = fields.map fun e => (e.1, ofTree e.2) := by
  induction fields with
  | nil => rfl
  | cons e fields ih =>
    cases e
    rw [ofFields, ih, List.map_cons]

theorem encodedFields_of (row : Payload) :
    encodedFields (row.map fun e => (Text.of e.1, some e.2)) = some row := by
  induction row with
  | nil => rfl
  | cons e row ih =>
    rw [encodedFields] at ih ⊢
    rw [List.map_cons, List.mapM_cons, ih, Text.encode_of]
    rfl

section Row

variable [Loads.PyFloatRepr] {row : Payload}

theorem floatsRead_rowTree (row : Payload) : (rowTree row).FloatsRead := by
  rw [rowTree, JsonTree.FloatsRead, JsonTree.floats, JsonTree.floatsFields_eq]
  intro repr hrepr
  obtain ⟨e, he, hrepr⟩ := List.mem_flatMap.mp hrepr
  obtain ⟨e, -, rfl⟩ := List.mem_map.mp he
  rw [floats_simpleTree] at hrepr
  cases hrepr

/-- **A row** of simple values is read as it was written. -/
theorem lineOf_rowTree (hsimple : ∀ e ∈ row, isAscii e.1 ∧ Simple e.2)
    (hkeys : (row.map Prod.fst).Nodup) (hmark : ∀ e ∈ row, e.1 ≠ ATTESTATION_MARK) :
    lineOf ((rowTree row).write true) = .record row := by
  have hjoined : (rowTree row).joined = rowTree row := by
    rw [rowTree, JsonTree.joined, JsonTree.joinedFields_eq, List.map_map]
    refine congrArg JsonTree.dict (List.map_congr_left fun e he => ?_)
    obtain ⟨hname, hvalue⟩ := hsimple e he
    exact Prod.ext (joined_of_isAscii hname) (joined_simpleTree hvalue)
  have hread : Loads.read ((rowTree row).write true) = some (rowTree row) :=
    (read_write (floatsRead_rowTree row)).trans (congrArg some hjoined)
  have hbraced : Loads.Braced ((rowTree row).write true) := ⟨_, rfl⟩
  have hblank : Loads.blank ((rowTree row).write true) = false :=
    hbraced.not_blank List.prefix_rfl (List.cons_ne_nil _ _) []
  have hfields : ofFields (row.map fun e => (Text.of e.1, simpleTree e.2)) =
      row.map fun e => (Text.of e.1, some e.2) := by
    rw [ofFields_eq, List.map_map]
    exact List.map_congr_left fun e he => Prod.ext rfl (ofTree_simpleTree (hsimple e he).2)
  have hnodup : ((row.map fun e => (Text.of e.1, some e.2)).map Prod.fst).Nodup := by
    rw [List.map_map]
    have hnames := hkeys.map Text.of_injective
    rwa [List.map_map] at hnames
  have hrow : rowOf (row.map fun e => (Text.of e.1, simpleTree e.2)) = some row := by
    rw [rowOf, hfields, dictOf_eq_self hnodup, List.filter_eq_self.mpr, encodedFields_of]
    rw [List.forall_mem_map]
    exact fun e he => decide_eq_true fun heq => hmark e he (Text.of_injective heq)
  rw [lineOf, hblank, if_neg Bool.false_ne_true, hread, rowTree]
  dsimp only
  rw [hrow]
  rfl

theorem fileOf_line {line : Text} (h : line.Printable) :
    fileOf (line ++ [newline]) = [lineOf line] := by
  have hreturn : .scalar '\r' ∉ line := fun hmem => absurd (h _ hmem).1 (by decide)
  rw [fileOf, linesAt_ended rfl h.unended_universalNewlines hreturn, List.map_singleton]

end Row

end Kripto.Campaign.CollectionText
