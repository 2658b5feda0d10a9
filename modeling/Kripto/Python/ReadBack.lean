/-
# What `json.loads` makes of what `json.dumps` wrote

* `read_write`: what is written in ASCII for a tree is read as this tree, its texts with their
  surrogate pairs made characters (`JsonTree.joined`);
* `write_joined`: which is written alike.

So a tree is known from what is written for it, up to `JsonTree.joined`.

With `ensure_ascii=False` a text is written as it is, but for quotes, backslashes and control
characters.  No escape stands for a surrogate then, and a text with one in it cannot be encoded.

* `read_plain`: what can be encoded is read as the tree that was written;
* `tree_eq_of_bytes`: two values with the same canonical bytes have the same tree.
-/
import Kripto.Python.Loads
import Kripto.Effect.Outcome

namespace Python

open Loads

/-! ## 1. Joined trees -/

/-- Surrogate pairs made characters, as `json.loads` makes them. -/
def Text.joined (t : Text) : Text := Loads.ofUnits t.units

/-- A unit that begins no pair is a code point. -/
theorem ofUnits_cons {u : ℕ} (hu : isHigh u = false) (us : List ℕ) :
    ofUnits (u :: us) = unitPoint u :: ofUnits us := by
  cases us with
  | nil => rfl
  | cons v us => rw [ofUnits, hu, Bool.false_and, if_neg Bool.false_ne_true]

/-- In ASCII there are no pairs. -/
theorem Text.joined_of_ascii {t : Text} (h : ∀ c ∈ t, c.ord < 0x80) : t.joined = t := by
  induction t with
  | nil => rfl
  | cons c t ih =>
    obtain ⟨hc, ht⟩ := List.forall_mem_cons.mp h
    cases c with
    | surrogate n =>
      simp only [CodePoint.ord] at hc
      omega
    | scalar ch =>
      simp only [CodePoint.ord] at hc
      have hhigh : isHigh ch.toNat = false := by
        rw [isHigh, decide_eq_false_iff_not]
        omega
      have hpoint : unitPoint ch.toNat = .scalar ch := by
        rw [unitPoint, if_neg (by omega), Char.ofNat_toNat]
      have hunits : Text.units (.scalar ch :: t) = ch.toNat :: Text.units t := by
        rw [Text.units_cons, CodePoint.units, if_pos (by omega)]
        rfl
      rw [Text.joined, hunits, ofUnits_cons hhigh, hpoint]
      exact congrArg _ (ih ht)

theorem Text.units_joined (t : Text) : t.joined.units = t.units :=
  Loads.units_ofUnits fun _ => Loads.units_lt_of_mem

namespace JsonTree

/-- Every part is a tree again. -/
@[elab_as_elim]
theorem induct {P : JsonTree → Prop} (null : P .null) (bool : ∀ b, P (.bool b))
    (int : ∀ n, P (.int n)) (float : ∀ repr, P (.float repr)) (str : ∀ s, P (.str s))
    (list : ∀ items, (∀ j ∈ items, P j) → P (.list items))
    (dict : ∀ fields : List (Text × JsonTree), (∀ e ∈ fields, P e.2) → P (.dict fields))
    (j : JsonTree) : P j :=
  @JsonTree.rec P (fun items => ∀ j ∈ items, P j) (fun fields => ∀ e ∈ fields, P e.2)
    (fun e => P e.2) null bool int float str list dict (List.forall_mem_nil _)
    (fun _ _ hj hitems => List.forall_mem_cons.mpr ⟨hj, hitems⟩) (List.forall_mem_nil _)
    (fun _ _ he hfields => List.forall_mem_cons.mpr ⟨he, hfields⟩) (fun _ _ hj => hj) j

mutual

/-- The tree with its texts joined. -/
def joined : JsonTree → JsonTree
  | .str s => .str s.joined
  | .list items => .list (joinedItems items)
  | .dict fields => .dict (joinedFields fields)
  | j => j

def joinedItems : List JsonTree → List JsonTree
  | [] => []
  | j :: items => j.joined :: joinedItems items

def joinedFields : List (Text × JsonTree) → List (Text × JsonTree)
  | [] => []
  | (k, j) :: fields => (k.joined, j.joined) :: joinedFields fields

end

mutual

/-- The texts of its floats. -/
def floats : JsonTree → List String
  | .float repr => [repr]
  | .list items => floatsItems items
  | .dict fields => floatsFields fields
  | _ => []

def floatsItems : List JsonTree → List String
  | [] => []
  | j :: items => j.floats ++ floatsItems items

def floatsFields : List (Text × JsonTree) → List String
  | [] => []
  | (_, j) :: fields => j.floats ++ floatsFields fields

end

theorem joinedItems_eq (items : List JsonTree) : joinedItems items = items.map joined := by
  induction items with
  | nil => rfl
  | cons j items ih => rw [joinedItems, ih, List.map_cons]

theorem joinedFields_eq (fields : List (Text × JsonTree)) :
    joinedFields fields = fields.map fun e => (e.1.joined, e.2.joined) := by
  induction fields with
  | nil => rfl
  | cons e fields ih =>
    cases e
    rw [joinedFields, ih, List.map_cons]

theorem floatsItems_eq (items : List JsonTree) : floatsItems items = items.flatMap floats := by
  induction items with
  | nil => rfl
  | cons j items ih => rw [floatsItems, ih, List.flatMap_cons]

theorem floatsFields_eq (fields : List (Text × JsonTree)) :
    floatsFields fields = fields.flatMap fun e => e.2.floats := by
  induction fields with
  | nil => rfl
  | cons e fields ih =>
    cases e
    rw [floatsFields, ih, List.flatMap_cons]

end JsonTree

theorem writeItems_eq (ensureAscii : Bool) (items : List JsonTree) :
    writeItems ensureAscii items = items.map (JsonTree.write ensureAscii) := by
  induction items with
  | nil => rfl
  | cons j items ih => rw [writeItems, ih, List.map_cons]

/-- **Joined texts** are written alike. -/
theorem write_joined (j : JsonTree) : j.joined.write true = j.write true := by
  have hquote : ∀ s : Text, quote true s.joined = quote true s :=
    fun s => quote_congr s.units_joined
  induction j using JsonTree.induct with
  | null => rfl
  | bool => rfl
  | int => rfl
  | float => rfl
  | str s => exact hquote s
  | list items ih =>
    rw [JsonTree.joined, JsonTree.write, JsonTree.write, writeItems_eq, writeItems_eq,
      JsonTree.joinedItems_eq, List.map_map]
    exact congrArg writeList (List.map_congr_left ih)
  | dict fields ih =>
    simp only [JsonTree.joined, JsonTree.write, writeFields_eq, JsonTree.joinedFields_eq,
      List.map_map, writeDict]
    congr 3
    refine List.map_congr_left fun e he => ?_
    simp only [Function.comp_apply, hquote, ih e he]

/-! ## 2. Where a value begins -/

/-- What a value does not begin with: white space, or a bracket that closes. -/
def NOT_FIRST : List Char := [' ', '\t', '\n', '\r', ']', '\x7d']

/-- What shows that a value is a text, a list or an object. -/
def OPENING : List Char := ['"', '[', '\x7b']

def Begins (t : Text) : Prop := ∃ c rest, t = .scalar c :: rest ∧ c ∉ NOT_FIRST

theorem skip_of_not_mem {c : Char} (hc : c ∉ NOT_FIRST) (rest : Text) :
    skip (.scalar c :: rest) = .scalar c :: rest := by
  refine List.dropWhile_cons_of_neg fun hspace => hc ?_
  simp only [isJsonSpace, decide_eq_true_eq] at hspace
  exact List.mem_append_left [']', '\x7d'] hspace

theorem Begins.skip {t : Text} (h : Begins t) (rest : Text) : skip (t ++ rest) = t ++ rest := by
  obtain ⟨c, t, rfl, hc⟩ := h
  exact skip_of_not_mem hc (t ++ rest)

theorem not_mem_of_isNumberChar {c : Char} (hc : isNumberChar (.scalar c) = true) :
    c ∉ NOT_FIRST ∧ c ∉ OPENING := by
  have hall : (NOT_FIRST ++ OPENING).all (fun d => !isNumberChar (.scalar d)) = true := by decide
  rw [← not_or, ← List.mem_append]
  intro hmem
  have hnot := List.all_eq_true.mp hall c hmem
  rw [hc] at hnot
  cases hnot

/-! ## 3. Reading a tree -/

section Reader

variable [PyFloatRepr]

/-- Its floats are read as they were written. -/
def JsonTree.FloatsRead (j : JsonTree) : Prop := ∀ repr ∈ j.floats, IsFloatRepr repr

def PyValue.FloatsRead (v : PyValue) : Prop := ∀ j, v.tree false = .ok j → j.FloatsRead

/-- What is no text, list or object is a scalar. -/
theorem readValue_scalar {c : Char} (hspace : c ∉ NOT_FIRST) (hopening : c ∉ OPENING) (n : ℕ)
    (rest : Text) : readValue (n + 1) (.scalar c :: rest) = readScalar (.scalar c :: rest) := by
  have hne : ∀ {d t}, CodePoint.scalar c :: rest = .scalar d :: t → d ∉ OPENING := by
    intro d t h
    rwa [← CodePoint.scalar.inj (List.cons.inj h).1]
  rw [readValue, skip_of_not_mem hspace]
  split
  · next h => exact absurd (by decide) (hne h)
  · next h => exact absurd (by decide) (hne h)
  · next h => exact absurd (by decide) (hne h)
  · rfl

/-- The text is read as the tree, whatever is behind it. -/
def Reads (t : Text) (j : JsonTree) : Prop :=
  ∀ n rest, Stops rest → t.length < n → readValue n (t ++ rest) = some (j, rest)

/-- It is read as the tree, wherever it stands. -/
def IsRead (t : Text) (j : JsonTree) : Prop := Begins t ∧ Reads t j

theorem isRead_number {token : String} {j : JsonTree}
    (htoken : ∀ c ∈ token.toList, isNumberChar (.scalar c) = true)
    (hj : numberOf token.toList = some j) : IsRead (Text.of token) j := by
  obtain ⟨c, cs, hcs⟩ : ∃ c cs, token.toList = c :: cs := by
    cases hlist : token.toList with
    | nil =>
      rw [hlist] at hj
      cases hj
    | cons c cs => exact ⟨c, cs, rfl⟩
  have hfirst := not_mem_of_isNumberChar (htoken c (hcs ▸ List.mem_cons_self))
  have hcons : Text.of token = .scalar c :: cs.map .scalar := by rw [Text.of, hcs, List.map_cons]
  refine ⟨⟨c, _, hcons, hfirst.1⟩, fun n rest hrest hn => ?_⟩
  obtain ⟨n, rfl⟩ := Nat.exists_eq_add_of_lt hn
  rw [hcons, List.cons_append, readValue_scalar hfirst.1 hfirst.2, ← List.cons_append, ← hcons,
    readScalar_number htoken hj hrest]

theorem isRead_name {e : String × JsonTree} (he : e ∈ NAMES) : IsRead (Text.of e.1) e.2 := by
  have hread := readScalar_name he
  obtain ⟨c, t, hcons, hspace, hopening⟩ :
      ∃ c t, Text.of e.1 = .scalar c :: t ∧ c ∉ NOT_FIRST ∧ c ∉ OPENING := by
    simp only [NAMES, List.mem_cons, List.not_mem_nil, or_false] at he
    rcases he with rfl | rfl | rfl | rfl | rfl | rfl <;>
      exact ⟨_, _, rfl, by decide, by decide⟩
  refine ⟨⟨c, t, hcons, hspace⟩, fun n rest hrest hn => ?_⟩
  obtain ⟨n, rfl⟩ := Nat.exists_eq_add_of_lt hn
  rw [← hread rest, hcons, List.cons_append, readValue_scalar hspace hopening]

theorem isRead_float {repr : String} (h : IsFloatRepr repr) :
    IsRead (Text.of repr) (.float repr) := by
  rcases h with hname | ⟨hchars, hnumber⟩
  · simp only [List.mem_cons, List.not_mem_nil, or_false] at hname
    have he : (repr, JsonTree.float repr) ∈ NAMES := by
      rcases hname with rfl | rfl | rfl <;> simp [NAMES]
    exact isRead_name he
  · exact isRead_number hchars hnumber

theorem readValue_quotes (n : ℕ) (t : Text) :
    readValue (n + 1) (.scalar '"' :: t) = (readString t).map fun e => (.str e.1, e.2) := rfl

omit [PyFloatRepr] in
theorem quote_append (ensureAscii : Bool) (s rest : Text) : quote ensureAscii s ++ rest =
    .scalar '"' :: (s.flatMap (escape ensureAscii) ++ .scalar '"' :: rest) := by
  rw [quote, List.append_assoc, List.singleton_append, List.cons_append]

omit [PyFloatRepr] in
theorem begins_quote (ensureAscii : Bool) (s rest : Text) :
    Begins (quote ensureAscii s ++ rest) := ⟨'"', _, quote_append ensureAscii s rest, by decide⟩

/-- What is written for `s`, between quotes, is read as `s'`. -/
def Quotes (ensureAscii : Bool) (s s' : Text) : Prop :=
  ∀ rest, readString (s.flatMap (escape ensureAscii) ++ .scalar '"' :: rest) = some (s', rest)

theorem isRead_str {ensureAscii : Bool} {s s' : Text} (h : Quotes ensureAscii s s') :
    IsRead (quote ensureAscii s) (.str s') := by
  have hbegins := begins_quote ensureAscii s []
  rw [List.append_nil] at hbegins
  refine ⟨hbegins, fun n rest hrest hn => ?_⟩
  obtain ⟨n, rfl⟩ := Nat.exists_eq_add_of_lt hn
  rw [quote_append, readValue_quotes, h]
  rfl

omit [PyFloatRepr] in
theorem stops_cons {c : Char} (hc : isNumberChar (.scalar c) = false) (rest : Text) :
    Stops (.scalar c :: rest) := by
  intro d hd
  rw [List.head?_cons, Option.mem_some_iff] at hd
  rw [← hd, hc]

omit [PyFloatRepr] in
/-- The parts begin as the first does. -/
theorem begins_commas {parts : List Text} (hne : parts ≠ [])
    (h : ∀ part ∈ parts.head?, Begins part) : Begins (commas parts) := by
  cases parts with
  | nil => exact absurd rfl hne
  | cons part parts =>
    obtain ⟨c, rest, rfl, hc⟩ := h part rfl
    cases parts with
    | nil => exact ⟨c, rest, rfl, hc⟩
    | cons next parts => exact ⟨c, _, rfl, hc⟩

/-- **Items** are read one by one, up to the bracket. -/
theorem readItems_commas {parts : List Text} {items : List JsonTree}
    (h : List.Forall₂ Reads parts items) (hne : parts ≠ []) {n : ℕ} {rest : Text}
    (hn : (commas parts).length + 1 < n) :
    readItems n (commas parts ++ .scalar ']' :: rest) = some (items, rest) := by
  induction h generalizing n with
  | nil => exact absurd rfl hne
  | @cons part j parts items hj hparts ih =>
    obtain ⟨n, rfl⟩ : ∃ m, n = m + 1 := ⟨n - 1, by omega⟩
    cases hparts with
    | nil =>
      have hvalue := hj n (.scalar ']' :: rest) (stops_cons (by decide) rest)
        (Nat.lt_of_succ_lt_succ hn)
      rw [commas, readItems, hvalue]
      rfl
    | @cons next _ parts _ _ _ =>
      rw [commas_cons, List.length_append, List.length_cons] at hn
      have hrest := ih (List.cons_ne_nil _ _) (n := n) (by omega)
      have hvalue := hj n (.scalar ',' :: (commas (next :: parts) ++ .scalar ']' :: rest))
        (stops_cons (by decide) _) (by omega)
      rw [commas_cons, List.append_assoc, List.cons_append, readItems, hvalue]
      change (readItems n _).map _ = _
      rw [hrest]
      rfl

/-- The text is read as a field, whether it is the last one or not. -/
def ReadsField (part : Text) (e : Text × JsonTree) : Prop :=
  ∀ n rest, part.length ≤ n →
    readFields (n + 1) (part ++ .scalar '\x7d' :: rest) = some ([e], rest) ∧
      readFields (n + 1) (part ++ .scalar ',' :: rest) =
        (readFields n rest).map fun found => (e :: found.1, found.2)

theorem readsField_quote {ensureAscii : Bool} {k k' t : Text} {j : JsonTree}
    (hk : Quotes ensureAscii k k') (h : Reads t j) :
    ReadsField (quote ensureAscii k ++ .scalar ':' :: t) (k', j) := by
  intro n rest hn
  rw [List.length_append, List.length_cons] at hn
  constructor
  · rw [List.append_assoc, quote_append, List.cons_append, readFields]
    change (readString _).bind _ = _
    rw [hk]
    change (readValue n (t ++ _)).bind _ = _
    rw [h n _ (stops_cons (by decide) rest) (by omega)]
    rfl
  · rw [List.append_assoc, quote_append, List.cons_append, readFields]
    change (readString _).bind _ = _
    rw [hk]
    change (readValue n (t ++ _)).bind _ = _
    rw [h n _ (stops_cons (by decide) rest) (by omega)]
    rfl

/-- **Fields** are read one by one, up to the brace. -/
theorem readFields_commas {parts : List Text} {fields : List (Text × JsonTree)}
    (h : List.Forall₂ ReadsField parts fields) (hne : parts ≠ []) {n : ℕ} {rest : Text}
    (hn : (commas parts).length + 1 < n) :
    readFields n (commas parts ++ .scalar '\x7d' :: rest) = some (fields, rest) := by
  induction h generalizing n with
  | nil => exact absurd rfl hne
  | @cons part e parts fields he hparts ih =>
    obtain ⟨n, rfl⟩ : ∃ m, n = m + 1 := ⟨n - 1, by omega⟩
    cases hparts with
    | nil =>
      rw [commas] at hn ⊢
      exact (he n rest (by omega)).1
    | @cons next _ parts _ _ _ =>
      rw [commas_cons, List.length_append, List.length_cons] at hn
      have hrest := ih (List.cons_ne_nil _ _) (n := n) (by omega)
      rw [commas_cons, List.append_assoc, List.cons_append, (he n _ (by omega)).2, hrest]
      rfl

omit [PyFloatRepr] in
/-- A value begins with no bracket that closes. -/
theorem Begins.behind {t : Text} (h : Begins t) {c : Char} (hc : c ∈ NOT_FIRST) (rest : Text) :
    behind c (t ++ rest) = none := by
  rw [Loads.behind, h.skip rest]
  obtain ⟨d, t, rfl, hd⟩ := h
  refine if_neg fun hhead => hd ?_
  rwa [CodePoint.scalar.inj (Option.some.inj hhead)]

theorem readValue_bracket {t : Text} (h : Begins t) (n : ℕ) (rest : Text) :
    readValue (n + 1) (.scalar '[' :: (t ++ rest)) =
      (readItems n (t ++ rest)).map fun e => (.list e.1, e.2) := by
  change (behind ']' (t ++ rest)).elim _ _ = _
  rw [h.behind (by decide)]
  rfl

theorem readValue_brace {t : Text} (h : Begins t) (n : ℕ) (rest : Text) :
    readValue (n + 1) (.scalar '\x7b' :: (t ++ rest)) =
      (readFields n (t ++ rest)).map fun e => (.dict e.1, e.2) := by
  change (behind '\x7d' (t ++ rest)).elim _ _ = _
  rw [h.behind (by decide)]
  rfl

theorem reads_list {parts : List Text} {items : List JsonTree}
    (h : List.Forall₂ Reads parts items) (hbegins : ∀ part ∈ parts.head?, Begins part) :
    Reads (writeList parts) (.list items) := by
  intro n rest hrest hn
  obtain ⟨n, rfl⟩ : ∃ m, n = m + 1 := ⟨n - 1, by omega⟩
  have hwrite : writeList parts ++ rest = .scalar '[' :: (commas parts ++ .scalar ']' :: rest) := by
    rw [writeList, List.append_assoc, List.append_assoc]
    rfl
  have hlength : (writeList parts).length = (commas parts).length + 2 := by
    simp [writeList, Text.of]
  rw [hwrite]
  by_cases hne : parts = []
  · subst hne
    cases h
    rfl
  · rw [readValue_bracket (begins_commas hne hbegins), readItems_commas h hne (by omega)]
    rfl

theorem reads_dict {parts : List Text} {fields : List (Text × JsonTree)}
    (h : List.Forall₂ ReadsField parts fields) (hbegins : ∀ part ∈ parts.head?, Begins part) :
    Reads (Text.of "\x7b" ++ commas parts ++ Text.of "\x7d") (.dict fields) := by
  intro n rest hrest hn
  obtain ⟨n, rfl⟩ : ∃ m, n = m + 1 := ⟨n - 1, by omega⟩
  have hwrite : Text.of "\x7b" ++ commas parts ++ Text.of "\x7d" ++ rest =
      .scalar '\x7b' :: (commas parts ++ .scalar '\x7d' :: rest) := by
    rw [List.append_assoc, List.append_assoc]
    rfl
  have hlength : (Text.of "\x7b" ++ commas parts ++ Text.of "\x7d").length =
      (commas parts).length + 2 := by
    simp [Text.of]
  rw [hwrite]
  by_cases hne : parts = []
  · subst hne
    cases h
    rfl
  · rw [readValue_brace (begins_commas hne hbegins), readFields_commas h hne (by omega)]
    rfl

theorem isRead_list {ensureAscii : Bool} {items : List JsonTree} {g : JsonTree → JsonTree}
    (h : ∀ j ∈ items, IsRead (j.write ensureAscii) (g j)) :
    IsRead ((JsonTree.list items).write ensureAscii) (.list (items.map g)) := by
  have hparts :
      List.Forall₂ Reads (items.map (JsonTree.write ensureAscii)) (items.map g) := by
    rw [List.forall₂_map_left_iff, List.forall₂_map_right_iff, List.forall₂_same]
    exact fun j hj => (h j hj).2
  have hbegins : ∀ part ∈ (items.map (JsonTree.write ensureAscii)).head?, Begins part := by
    intro part hpart
    obtain ⟨j, hj, rfl⟩ := List.mem_map.mp (List.mem_of_mem_head? hpart)
    exact (h j hj).1
  rw [JsonTree.write, writeItems_eq]
  exact ⟨⟨'[', _, rfl, by decide⟩, reads_list hparts hbegins⟩

theorem isRead_dict {ensureAscii : Bool} {fields : List (Text × JsonTree)}
    {g : Text × JsonTree → Text × JsonTree}
    (h : ∀ e ∈ fields,
      Quotes ensureAscii e.1 (g e).1 ∧ IsRead (e.2.write ensureAscii) (g e).2) :
    IsRead ((JsonTree.dict fields).write ensureAscii) (.dict (fields.map g)) := by
  let entry (e : Text × JsonTree) :=
    quote ensureAscii e.1 ++ .scalar ':' :: e.2.write ensureAscii
  have hparts : List.Forall₂ ReadsField (fields.map entry) (fields.map g) := by
    rw [List.forall₂_map_left_iff, List.forall₂_map_right_iff, List.forall₂_same]
    exact fun e he => readsField_quote (h e he).1 (h e he).2.2
  have hbegins : ∀ part ∈ (fields.map entry).head?, Begins part := by
    intro part hpart
    obtain ⟨e, -, rfl⟩ := List.mem_map.mp (List.mem_of_mem_head? hpart)
    exact begins_quote ensureAscii e.1 _
  rw [JsonTree.write, writeFields_eq, writeDict, List.map_map]
  exact ⟨⟨'\x7b', _, rfl, by decide⟩, reads_dict hparts hbegins⟩

/-- **A tree** is read as it was written, its texts joined. -/
theorem isRead (j : JsonTree) (h : j.FloatsRead) : IsRead (j.write true) j.joined := by
  induction j using JsonTree.induct with
  | null => exact @isRead_name _ ("null", .null) (by simp [NAMES])
  | bool b =>
    cases b with
    | false => exact @isRead_name _ ("false", .bool false) (by simp [NAMES])
    | true => exact @isRead_name _ ("true", .bool true) (by simp [NAMES])
  | int n => exact isRead_number (isNumberChar_toString n) (numberOf_toString n)
  | float repr => exact isRead_float (h repr (List.mem_singleton_self repr))
  | str s => exact isRead_str (readString_quote s)
  | list items ih =>
    rw [JsonTree.FloatsRead, JsonTree.floats, JsonTree.floatsItems_eq] at h
    rw [JsonTree.joined, JsonTree.joinedItems_eq]
    exact isRead_list fun j hj =>
      ih j hj fun repr hrepr => h repr (List.mem_flatMap_of_mem hj hrepr)
  | dict fields ih =>
    rw [JsonTree.FloatsRead, JsonTree.floats, JsonTree.floatsFields_eq] at h
    rw [JsonTree.joined, JsonTree.joinedFields_eq]
    exact isRead_dict fun e he => ⟨readString_quote e.1,
      ih e he fun repr hrepr => h repr (List.mem_flatMap.mpr ⟨e, he, hrepr⟩)⟩

/-- What is read as a tree wherever it stands is read as it by itself. -/
theorem Reads.read {t : Text} {j : JsonTree} (h : Reads t j) : Loads.read t = some j := by
  have hstops : Stops [] := fun c hc => by cases hc
  have hread := h _ [] hstops (Nat.lt_succ_self _)
  rw [List.append_nil] at hread
  rw [Loads.read, hread]
  rfl

theorem read_write {j : JsonTree} (h : j.FloatsRead) : Loads.read (j.write true) = some j.joined :=
  Reads.read (isRead j h).2

/-- A tree is known from what is written for it, up to its texts' code units. -/
theorem joined_eq_of_write {j j' : JsonTree} (h : j.FloatsRead) (h' : j'.FloatsRead)
    (heq : j.write true = j'.write true) : j.joined = j'.joined := by
  have hread := read_write h
  rw [heq, read_write h'] at hread
  exact (Option.some.inj hread).symm

end Reader

end Python

namespace Python

open Effect Loads

/-! ## 4. Texts in quotes -/

/-- What has an escape has the same one. -/
theorem escapeChar_eq_ascii {c : Char}
    (h : (ESCAPE_DCT.lookup c).isSome = true ∨ c.toNat < 0x20) :
    escapeChar false c = escapeChar true c := by
  unfold escapeChar
  cases hlookup : ESCAPE_DCT.lookup c with
  | some escaped => rfl
  | none =>
    rcases h with h | h
    · rw [hlookup] at h
      exact nomatch h
    · simp [h]

/-- What has an escape is a 16-bit character. -/
theorem toNat_lt_of_escape {c : Char} (h : (ESCAPE_DCT.lookup c).isSome = true) :
    c.toNat < 0x10000 := by
  obtain ⟨escaped, hlookup⟩ := Option.isSome_iff_exists.mp h
  have hall : ∀ e ∈ ESCAPE_DCT, e.1.toNat < 0x10000 := by decide
  exact hall _ (mem_of_lookup hlookup)

/-- **A character** is read as it was written. -/
theorem scanUnit_plain (c : Char) (rest : Text) :
    scanUnit (escapeChar false c ++ rest) = some (c.toNat, rest) := by
  by_cases h : (ESCAPE_DCT.lookup c).isSome = true ∨ c.toNat < 0x20
  · have hsmall : c.toNat < 0x10000 := by
      rcases h with h | h
      · exact toNat_lt_of_escape h
      · omega
    rw [escapeChar_eq_ascii h, scanUnit_escapeChar c hsmall]
  · obtain ⟨hlookup, hcontrol⟩ := not_or.mp h
    rw [Option.not_isSome_iff_eq_none] at hlookup
    have hquote : c ≠ '"' := by
      rintro rfl
      exact absurd hlookup (by decide)
    have hbackslash : c ≠ '\\' := by
      rintro rfl
      exact absurd hlookup (by decide)
    rw [escapeChar, hlookup]
    simp [hcontrol, scanUnit_scalar hbackslash, readUnit, hquote, hbackslash]

theorem scanUnits_plain {cs : List Char} {n : ℕ} (hn : cs.length < n) (rest : Text) :
    scanUnits n (cs.flatMap (escapeChar false) ++ .scalar '"' :: rest) =
      some (cs.map Char.toNat, rest) := by
  induction cs generalizing n with
  | nil =>
    obtain ⟨n, rfl⟩ := Nat.exists_eq_add_of_lt hn
    rfl
  | cons c cs ih =>
    obtain ⟨n, rfl⟩ : ∃ m, n = m + 1 := ⟨n - 1, by omega⟩
    rw [List.length_cons] at hn
    have hrest := @ih n (by omega)
    have hscan := scanUnit_plain c (cs.flatMap (escapeChar false) ++ .scalar '"' :: rest)
    rw [List.flatMap_cons, List.append_assoc]
    generalize escapeChar false c ++ (cs.flatMap (escapeChar false) ++ .scalar '"' :: rest) = t
      at hscan
    rw [scanUnits, hscan]
    · simp only [Option.bind_eq_bind, Option.bind_some, hrest]
      rfl
    · rintro rest rfl
      cases hscan

theorem ofUnits_chars (cs : List Char) : ofUnits (cs.map Char.toNat) = cs.map .scalar := by
  induction cs with
  | nil => rfl
  | cons c cs ih =>
    have hvalid : c.toNat < 0xd800 ∨ 0xdfff < c.toNat ∧ c.toNat < 0x110000 := c.valid
    have hhigh : isHigh c.toNat = false := by
      simp only [isHigh, decide_eq_false_iff_not]
      omega
    rw [List.map_cons, ofUnits_cons hhigh, ih, List.map_cons, unitPoint, if_neg (by omega),
      Char.ofNat_toNat]

theorem length_le_flatMap_escapeChar (cs : List Char) :
    cs.length ≤ (cs.flatMap (escapeChar false)).length := by
  induction cs with
  | nil => exact le_rfl
  | cons c cs ih =>
    have hne : escapeChar false c ≠ [] := by
      intro hnil
      have hscan := scanUnit_plain c []
      rw [hnil] at hscan
      cases hscan
    have hpos := List.length_pos_iff.mpr hne
    rw [List.flatMap_cons, List.length_append, List.length_cons]
    omega

theorem flatMap_escape_of (s : String) :
    (Text.of s).flatMap (escape false) = s.toList.flatMap (escapeChar false) := by
  rw [Text.of, List.flatMap_map]
  rfl

theorem readString_plain (s : String) (rest : Text) :
    readString ((Text.of s).flatMap (escape false) ++ .scalar '"' :: rest) =
      some (Text.of s, rest) := by
  have hlength := length_le_flatMap_escapeChar s.toList
  rw [readString, flatMap_escape_of, scanUnits_plain (by rw [List.length_append]; omega),
    Option.map_some, ofUnits_chars]
  rfl

/-! ## 5. Texts that can be encoded -/

theorem encodable_append {t t' : Text} :
    Text.Encodable (t ++ t') ↔ t.Encodable ∧ t'.Encodable := List.forall_mem_append

theorem encodable_cons {c : Char} {t : Text} :
    Text.Encodable (.scalar c :: t) ↔ t.Encodable := by
  constructor
  · exact fun h d hd => h d (List.mem_cons_of_mem _ hd)
  · exact fun h => h.scalar_cons c

/-- A text can be encoded in quotes only if it can be encoded. -/
theorem encodable_of_quote {s : Text} (h : (quote false s).Encodable) : s.Encodable := by
  intro c hc
  cases c with
  | scalar ch => rfl
  | surrogate n =>
    refine h _ (List.mem_append_left _ (List.mem_cons_of_mem _ ?_))
    exact List.mem_flatMap.mpr ⟨.surrogate n, hc, by simp [escape]⟩

theorem encodable_commas_iff {parts : List Text} :
    (commas parts).Encodable ↔ ∀ part ∈ parts, part.Encodable := by
  constructor
  · intro h
    induction parts with
    | nil => exact nofun
    | cons part parts ih =>
      cases parts with
      | nil => exact List.forall_mem_singleton.mpr h
      | cons next parts =>
        rw [commas_cons, encodable_append, encodable_cons] at h
        exact List.forall_mem_cons.mpr ⟨h.1, ih h.2⟩
  · exact encodable_commas

theorem encodable_of_writeList {parts : List Text} (h : (writeList parts).Encodable) :
    ∀ part ∈ parts, part.Encodable :=
  encodable_commas_iff.mp (encodable_append.mp (encodable_append.mp h).1).2

theorem encodable_of_writeDict {fields : List (Text × Text)}
    (h : (writeDict false fields).Encodable) : ∀ e ∈ fields, e.1.Encodable ∧ e.2.Encodable := by
  intro e he
  have hparts := encodable_commas_iff.mp (encodable_append.mp (encodable_append.mp h).1).2
  have hpart := hparts _ (List.mem_map_of_mem he)
  rw [encodable_append, encodable_cons] at hpart
  exact ⟨encodable_of_quote hpart.1, hpart.2⟩

/-! ## 6. Trees -/

variable [PyFloatRepr]

omit [PyFloatRepr] in
theorem quotes_plain {s : Text} (h : s.Encodable) : Quotes false s s := by
  obtain ⟨s, rfl⟩ := h.exists_of
  exact readString_plain s

/-- **A tree that can be encoded** is read as it was written. -/
theorem isRead_plain (j : JsonTree) (h : j.FloatsRead) (hj : (j.write false).Encodable) :
    IsRead (j.write false) j := by
  induction j using JsonTree.induct with
  | null => exact @isRead_name _ ("null", .null) (by simp [NAMES])
  | bool b =>
    cases b with
    | false => exact @isRead_name _ ("false", .bool false) (by simp [NAMES])
    | true => exact @isRead_name _ ("true", .bool true) (by simp [NAMES])
  | int n => exact isRead_number (isNumberChar_toString n) (numberOf_toString n)
  | float repr => exact isRead_float (h repr (List.mem_singleton_self repr))
  | str s => exact isRead_str (quotes_plain (encodable_of_quote hj))
  | list items ih =>
    rw [JsonTree.FloatsRead, JsonTree.floats, JsonTree.floatsItems_eq] at h
    have hitems := hj
    rw [JsonTree.write, writeItems_eq] at hitems
    have hread := @isRead_list _ false items id fun j hj => ih j hj
      (fun repr hrepr => h repr (List.mem_flatMap_of_mem hj hrepr))
      (encodable_of_writeList hitems _ (List.mem_map_of_mem hj))
    rwa [List.map_id] at hread
  | dict fields ih =>
    rw [JsonTree.FloatsRead, JsonTree.floats, JsonTree.floatsFields_eq] at h
    have hfields := hj
    rw [JsonTree.write, writeFields_eq] at hfields
    have hread := @isRead_dict _ false fields id fun e he =>
      have hencodable := encodable_of_writeDict hfields _ (List.mem_map_of_mem he)
      ⟨quotes_plain hencodable.1,
        ih e he (fun repr hrepr => h repr (List.mem_flatMap.mpr ⟨e, he, hrepr⟩)) hencodable.2⟩
    rwa [List.map_id] at hread

theorem read_plain {j : JsonTree} (h : j.FloatsRead) (hj : (j.write false).Encodable) :
    Loads.read (j.write false) = some j :=
  Reads.read (isRead_plain j h hj).2

/-! ## 7. Canonical bytes -/

omit [PyFloatRepr] in
/-- The same keys, each once: the order of the entries is then known. -/
theorem eq_of_perm_of_keys {β : Type} {l l' : List (Text × β)} (hperm : l.Perm l')
    (hkeys : l.map Prod.fst = l'.map Prod.fst) (hnodup : (l.map Prod.fst).Nodup) : l = l' := by
  induction l generalizing l' with
  | nil => rw [List.nil_perm.mp hperm]
  | cons e l ih =>
    cases l' with
    | nil => exact nomatch hkeys
    | cons e' l' =>
      simp only [List.map_cons, List.cons.injEq] at hkeys
      rw [List.map_cons, List.nodup_cons, hkeys.2] at hnodup
      obtain rfl : e = e' := by
        rcases List.mem_cons.mp (hperm.mem_iff.mp List.mem_cons_self) with heq | hmem
        · exact heq
        · exact absurd (List.mem_map_of_mem hmem) hnodup.1
      rw [ih hperm.cons_inv hkeys.2 (hkeys.2 ▸ hnodup.2)]

omit [PyFloatRepr] in
/-- The bytes of a value are the text of its tree. -/
theorem bytes_plain_eq_ok_iff {v : PyValue} {text : String} :
    v.bytes { ensureAscii := false } = .ok text ↔
      ∃ j, v.tree false = .ok j ∧ j.write false = Text.of text := by
  rw [PyValue.bytes, dumps_eq]
  cases v.tree false with
  | error e => simp [Except.map]
  | ok j =>
    simp only [Except.map, ok_bind, Except.ok.injEq, exists_eq_left']
    cases hencode : (j.write false).encode with
    | some s =>
      rw [Text.encode_eq_some_iff] at hencode
      simp [hencode, Text.of_injective.eq_iff]
    | none =>
      refine iff_of_false nofun fun heq => ?_
      rw [heq, Text.encode_of] at hencode
      exact nomatch hencode

/-- **The canonical bytes** determine the tree. -/
theorem tree_eq_of_bytes {v v' : PyValue} {text : String} (hv : v.FloatsRead) (hv' : v'.FloatsRead)
    (h : v.bytes { ensureAscii := false } = .ok text)
    (h' : v'.bytes { ensureAscii := false } = .ok text) : v.tree false = v'.tree false := by
  obtain ⟨j, hj, hwrite⟩ := bytes_plain_eq_ok_iff.mp h
  obtain ⟨j', hj', hwrite'⟩ := bytes_plain_eq_ok_iff.mp h'
  have hread := read_plain (hv j hj) (hwrite ▸ Text.encodable_of text)
  have hread' := read_plain (hv' j' hj') (hwrite' ▸ Text.encodable_of text)
  rw [hwrite] at hread
  rw [hwrite'] at hread'
  obtain rfl := Option.some.inj (hread.symm.trans hread')
  rw [hj, hj']

omit [PyFloatRepr] in
/-- The trees of fields with texts for keys. -/
theorem treeFields_names {names : List Text} {f : Text → PyValue} {js : List (Key × JsonTree)}
    (h : treeFields false (names.map fun name => (.str name, f name)) = .ok js) :
    ∃ fields : List (Text × JsonTree), js = fields.map (fun e => (.str e.1, e.2)) ∧
      fields.map Prod.fst = names ∧ ∀ e ∈ fields, (f e.1).tree false = .ok e.2 := by
  induction names generalizing js with
  | nil =>
    cases h
    exact ⟨[], rfl, rfl, nofun⟩
  | cons name names ih =>
    simp only [List.map_cons, treeFields, bind_eq_ok_iff, pure_eq_ok, Except.ok.injEq] at h
    obtain ⟨j, hj, js, hjs, rfl⟩ := h
    obtain ⟨fields, rfl, rfl, hfields⟩ := ih hjs
    exact ⟨(name, j) :: fields, rfl, rfl, List.forall_mem_cons.mpr ⟨hj, hfields⟩⟩

omit [PyFloatRepr] in
/-- **The tree of a dictionary** determines the trees of its fields. -/
theorem tree_field_eq {names : List Text} {f f' : Text → PyValue} {j : JsonTree}
    (hnames : names.Nodup)
    (h : (PyValue.dict (names.map fun name => (.str name, f name))).tree false = .ok j)
    (h' : (PyValue.dict (names.map fun name => (.str name, f' name))).tree false = .ok j) :
    ∀ name ∈ names, ∃ j, (f name).tree false = .ok j ∧ (f' name).tree false = .ok j := by
  simp only [PyValue.tree, bind_eq_ok_iff, pure_eq_ok, Except.ok.injEq] at h h'
  obtain ⟨js, hjs, sorted, hsorted, rfl⟩ := h
  obtain ⟨js', hjs', sorted', hsorted', heq⟩ := h'
  obtain rfl := JsonTree.dict.inj heq
  obtain ⟨fields, rfl, hkeys, hfields⟩ := treeFields_names hjs
  obtain ⟨fields', rfl, hkeys', hfields'⟩ := treeFields_names hjs'
  rw [sortKeys_texts] at hsorted hsorted'
  have hperm : fields.Perm fields' := by
    have hsame := (Except.ok.inj hsorted).trans (Except.ok.inj hsorted').symm
    exact ((List.perm_insertionSort _ _).symm.trans (.of_eq hsame)).trans
      (List.perm_insertionSort _ _)
  obtain rfl := eq_of_perm_of_keys hperm (hkeys.trans hkeys'.symm) (hkeys ▸ hnames)
  intro name hname
  obtain ⟨e, he, rfl⟩ := List.mem_map.mp (hkeys ▸ hname)
  exact ⟨e.2, hfields e he, hfields' e he⟩

end Python
