/-
# `json.loads`

A reader of JSON texts; `readString_quote`, `numberOf_toString` and `readScalar_name` say that it
reads the parts of a text as they were written.

A text is read by its code units, and a pair of surrogates among them is made a character
(`ofUnits`).  A float is its `repr`; that `float` reads it as the float it is of is said of the
floats at hand (`IsFloatRepr`).
-/
import Kripto.Python.JsonTree
import Kripto.Python.Parts

namespace Python.Loads

/-! ## 1. Characters and code units -/

def isJsonSpace : CodePoint → Bool
  | .scalar c => c ∈ [' ', '\t', '\n', '\r']
  | .surrogate _ => false

/-- White space between the parts of a text. -/
def skip (t : Text) : Text := t.dropWhile isJsonSpace

/-- The letters of escapes that `readUnit` reads. -/
def ESCAPES : List Char := ['"', '\\', 'b', 'f', 'n', 'r', 't', 'u']

/-- A code unit in quotes.  The text has been decoded, so that no surrogate stands in it. -/
def scanUnit (t : Text) : Option (ℕ × Text) :=
  match t with
  | .scalar '\\' :: .scalar '/' :: rest => some (0x2f, rest)
  | .scalar '\\' :: .scalar e :: _ => if e ∈ ESCAPES then readUnit t else none
  | .scalar c :: _ => if c.toNat < 0x20 then none else readUnit t
  | _ => none

/-- The code units up to the closing quotes. -/
def scanUnits : ℕ → Text → Option (List ℕ × Text)
  | 0, _ => none
  | n + 1, t =>
    match t with
    | .scalar '"' :: rest => some ([], rest)
    | t => do
      let (u, rest) ← scanUnit t
      let (us, rest) ← scanUnits n rest
      return (u :: us, rest)

def isHigh (u : ℕ) : Bool := 0xd800 ≤ u ∧ u < 0xdc00

def isLow (u : ℕ) : Bool := 0xdc00 ≤ u ∧ u < 0xe000

/-- The code point of a unit by itself. -/
def unitPoint (u : ℕ) : CodePoint :=
  if 0xd800 ≤ u ∧ u < 0xe000 then .surrogate (Fin.ofNat 2048 (u - 0xd800))
  else .scalar (Char.ofNat u)

/-- The text of code units: a high surrogate and a low one after it make a character. -/
def ofUnits : List ℕ → Text
  | u :: v :: us =>
    if isHigh u && isLow v then
      .scalar (Char.ofNat (0x10000 + 0x400 * (u - 0xd800) + (v - 0xdc00))) :: ofUnits us
    else unitPoint u :: ofUnits (v :: us)
  | [u] => [unitPoint u]
  | [] => []

/-- What stands after the opening quotes. -/
def readString (t : Text) : Option (Text × Text) :=
  (scanUnits (t.length + 1) t).map fun e => (ofUnits e.1, e.2)

/-! ## 2. Numbers and names -/

/-- `repr(float(text))`. -/
class PyFloatRepr where
  floatRepr : String → String

def isNumberChar : CodePoint → Bool
  | .scalar c => c.isDigit || c ∈ ['+', '-', '.', 'e', 'E']
  | .surrogate _ => false

/-- Without a minus. -/
def unsigned : List Char → List Char
  | '-' :: cs => cs
  | cs => cs

/-- No zero in front of other digits. -/
def isWhole (ds : List Char) : Bool :=
  ds ≠ [] ∧ ds.all Char.isDigit ∧ (ds.head? = some '0' → ds.length = 1)

def isInt (cs : List Char) : Bool := isWhole (unsigned cs)

def intOf : List Char → ℤ
  | '-' :: ds => -(Nat.ofDigitChars 10 ds 0 : ℕ)
  | ds => (Nat.ofDigitChars 10 ds 0 : ℕ)

def isExponent : List Char → Bool
  | c :: cs =>
    let ds := if cs.head? = some '+' ∨ cs.head? = some '-' then cs.tail else cs
    (c = 'e' ∨ c = 'E') ∧ ds ≠ [] ∧ ds.all Char.isDigit
  | [] => false

/-- A fraction, an exponent, or both. -/
def isFraction : List Char → Bool
  | '.' :: cs =>
    cs.takeWhile Char.isDigit ≠ [] ∧
      (cs.dropWhile Char.isDigit = [] ∨ isExponent (cs.dropWhile Char.isDigit))
  | cs => isExponent cs

def isFloat (cs : List Char) : Bool :=
  isWhole ((unsigned cs).takeWhile Char.isDigit) && isFraction ((unsigned cs).dropWhile Char.isDigit)

section Reader

variable [PyFloatRepr]

def numberOf (cs : List Char) : Option JsonTree :=
  if isInt cs then some (.int (intOf cs))
  else if isFloat cs then some (.float (PyFloatRepr.floatRepr (String.ofList cs)))
  else none

def readNumber (t : Text) : Option (JsonTree × Text) :=
  (numberOf ((t.takeWhile isNumberChar).filterMap CodePoint.char?)).map fun j =>
    (j, t.dropWhile isNumberChar)

def NAMES : List (String × JsonTree) :=
  [("null", .null), ("true", .bool true), ("false", .bool false), ("NaN", .float "NaN"),
    ("Infinity", .float "Infinity"), ("-Infinity", .float "-Infinity")]

/-- A number or a name. -/
def readScalar (t : Text) : Option (JsonTree × Text) :=
  match readNumber t with
  | some found => some found
  | none =>
    (NAMES.find? fun e => (Text.of e.1).isPrefixOf t).map fun e => (e.2, t.drop e.1.length)

/-! ## 3. Values -/

/-- What is behind a closing bracket, if it comes next. -/
def behind (c : Char) (t : Text) : Option Text :=
  if (skip t).head? = some (.scalar c) then some (skip t).tail else none

mutual

def readValue : ℕ → Text → Option (JsonTree × Text)
  | 0, _ => none
  | n + 1, t =>
    match skip t with
    | .scalar '"' :: rest => (readString rest).map fun e => (.str e.1, e.2)
    | .scalar '[' :: rest =>
      (behind ']' rest).elim ((readItems n rest).map fun e => (.list e.1, e.2)) fun rest =>
        some (.list [], rest)
    | .scalar '\x7b' :: rest =>
      (behind '\x7d' rest).elim ((readFields n rest).map fun e => (.dict e.1, e.2)) fun rest =>
        some (.dict [], rest)
    | t => readScalar t

/-- Items, and the bracket behind them. -/
def readItems : ℕ → Text → Option (List JsonTree × Text)
  | 0, _ => none
  | n + 1, t => do
    let (j, rest) ← readValue n t
    match skip rest with
    | .scalar ',' :: rest => (readItems n rest).map fun e => (j :: e.1, e.2)
    | .scalar ']' :: rest => some ([j], rest)
    | _ => none

/-- Fields, and the brace behind them. -/
def readFields : ℕ → Text → Option (List (Text × JsonTree) × Text)
  | 0, _ => none
  | n + 1, t =>
    match skip t with
    | .scalar '"' :: rest => do
      let (k, rest) ← readString rest
      match skip rest with
      | .scalar ':' :: rest => do
        let (j, rest) ← readValue n rest
        match skip rest with
        | .scalar ',' :: rest => (readFields n rest).map fun e => ((k, j) :: e.1, e.2)
        | .scalar '\x7d' :: rest => some ([(k, j)], rest)
        | _ => none
      | _ => none
    | _ => none

end

/-- The tree of a text. -/
def read (t : Text) : Option JsonTree := do
  let (j, rest) ← readValue (t.length + 1) t
  if skip rest = [] then return j else none

end Reader

/-! ## 4. Texts in quotes -/

/-- What may follow an escape. -/
theorem scanUnit_scalar {c : Char} (hc : c ≠ '\\') (rest : Text) :
    scanUnit (.scalar c :: rest) =
      if c.toNat < 0x20 then none else readUnit (.scalar c :: rest) := by
  unfold scanUnit
  split
  · next h => exact absurd (CodePoint.scalar.inj (List.cons.inj h).1) hc
  · next h => exact absurd (CodePoint.scalar.inj (List.cons.inj h).1) hc
  · next h =>
    rw [(CodePoint.scalar.inj (List.cons.inj h).1), (List.cons.inj h).2]
  · next h => exact absurd rfl (h c rest)

theorem scanUnit_unicodeEscape {n : ℕ} (hn : n < 0x10000) (rest : Text) :
    scanUnit (unicodeEscape n ++ rest) = some (n, rest) := by
  rw [← readUnit_unicodeEscape hn rest]
  rfl

theorem scanUnit_escapeChar (c : Char) (hc : c.toNat < 0x10000) (rest : Text) :
    scanUnit (escapeChar true c ++ rest) = some (c.toNat, rest) := by
  rw [← readUnit_escapeChar c hc rest]
  cases hlookup : ESCAPE_DCT.lookup c with
  | some escaped =>
    have hall : ∀ e ∈ ESCAPE_DCT,
        scanUnit (Text.of e.2 ++ rest) = readUnit (Text.of e.2 ++ rest) := by
      simp only [ESCAPE_DCT, List.forall_mem_cons]
      exact ⟨rfl, rfl, rfl, rfl, rfl, rfl, rfl, List.forall_mem_nil _⟩
    rw [escapeChar, hlookup]
    exact hall _ (mem_of_lookup hlookup)
  | none =>
    have hbackslash : c ≠ '\\' := by
      rintro rfl
      exact absurd hlookup (by decide)
    rw [escapeChar, hlookup]
    dsimp only
    split_ifs with hcontrol hascii
    · rfl
    · rw [asciiEscape, if_pos hc]
      rfl
    · rw [List.singleton_append, scanUnit_scalar hbackslash, if_neg hcontrol]

/-- **A code unit** is read as it was written. -/
theorem scanUnit_escapeUnit {u : ℕ} (hu : u < 0x10000) (rest : Text) :
    scanUnit (escapeUnit u ++ rest) = some (u, rest) := by
  unfold escapeUnit
  split_ifs with hsurrogate
  · exact scanUnit_unicodeEscape hu rest
  · have hvalid : u.isValidChar := by
      simp only [Nat.isValidChar]
      omega
    have hnat := toNat_ofNat hvalid
    rw [scanUnit_escapeChar _ (by omega), hnat]

/-- The quotes do not end where a unit is written. -/
theorem scanUnits_escapeUnit {u : ℕ} (hu : u < 0x10000) (n : ℕ) (rest : Text) :
    scanUnits (n + 1) (escapeUnit u ++ rest) =
      (scanUnits n rest).map fun e => (u :: e.1, e.2) := by
  have hread := readUnit_escapeUnit hu rest
  have hscan := scanUnit_escapeUnit hu rest
  generalize escapeUnit u ++ rest = t at hread hscan
  rw [scanUnits, hscan]
  · simp only [Option.bind_eq_bind, Option.bind_some]
    cases scanUnits n rest <;> rfl
  · rintro rest rfl
    cases hread

theorem scanUnits_write {us : List ℕ} (hus : ∀ u ∈ us, u < 0x10000) {n : ℕ} (hn : us.length < n)
    (rest : Text) :
    scanUnits n (us.flatMap escapeUnit ++ .scalar '"' :: rest) = some (us, rest) := by
  induction us generalizing n with
  | nil =>
    obtain ⟨n, rfl⟩ := Nat.exists_eq_add_of_lt hn
    rfl
  | cons u us ih =>
    obtain ⟨n, rfl⟩ : ∃ m, n = m + 1 := ⟨n - 1, by omega⟩
    have hrest := ih (fun v hv => hus v (List.mem_cons_of_mem _ hv)) (n := n)
      (by rw [List.length_cons] at hn; omega)
    rw [List.flatMap_cons, List.append_assoc, scanUnits_escapeUnit (hus u List.mem_cons_self),
      hrest]
    rfl

theorem units_lt_of_mem {s : Text} {u : ℕ} (hu : u ∈ s.units) : u < 0x10000 := by
  obtain ⟨c, -, hu⟩ := List.mem_flatMap.mp hu
  exact units_lt hu

theorem length_le_flatMap_escapeUnit {us : List ℕ} (hus : ∀ u ∈ us, u < 0x10000) :
    us.length ≤ (us.flatMap escapeUnit).length := by
  induction us with
  | nil => exact le_rfl
  | cons u us ih =>
    have hrest := ih fun v hv => hus v (List.mem_cons_of_mem _ hv)
    have hread := readUnit_escapeUnit (hus u List.mem_cons_self) []
    have hne : escapeUnit u ≠ [] := by
      intro hnil
      rw [hnil] at hread
      cases hread
    have hpos := List.length_pos_iff.mpr hne
    rw [List.flatMap_cons, List.length_append, List.length_cons]
    omega

/-- **A text in quotes** is read up to its code units. -/
theorem readString_quote (s rest : Text) :
    readString (s.flatMap (escape true) ++ .scalar '"' :: rest) = some (ofUnits s.units, rest) := by
  have hus : ∀ u ∈ s.units, u < 0x10000 := fun u => units_lt_of_mem
  have hlength := length_le_flatMap_escapeUnit hus
  rw [readString, flatMap_escape, scanUnits_write hus (by rw [List.length_append]; omega)]
  rfl

/-! ## 5. Code units made characters -/

theorem units_unitPoint {u : ℕ} (hu : u < 0x10000) : (unitPoint u).units = [u] := by
  unfold unitPoint
  split_ifs with hsurrogate
  · have hmod : (u - 0xd800) % 2048 = u - 0xd800 := Nat.mod_eq_of_lt (by omega)
    simp only [CodePoint.units, Fin.val_ofNat, hmod, List.cons.injEq, and_true]
    omega
  · have hvalid : u.isValidChar := by
      simp only [Nat.isValidChar]
      omega
    rw [CodePoint.units, toNat_ofNat hvalid, if_pos hu]

/-- A pair of surrogates is written like the character they stand for. -/
theorem units_pair {u v : ℕ} (hu : isHigh u = true) (hv : isLow v = true) :
    CodePoint.units (.scalar (Char.ofNat (0x10000 + 0x400 * (u - 0xd800) + (v - 0xdc00)))) =
      [u, v] := by
  simp only [isHigh, isLow, decide_eq_true_eq] at hu hv
  have hvalid : (0x10000 + 0x400 * (u - 0xd800) + (v - 0xdc00)).isValidChar := by
    simp only [Nat.isValidChar]
    omega
  have hlarge : ¬ 0x10000 + 0x400 * (u - 0xd800) + (v - 0xdc00) < 0x10000 := by omega
  simp only [CodePoint.units, toNat_ofNat hvalid, if_neg hlarge, List.cons.injEq, and_true]
  omega

/-- What is read is written with the same units. -/
theorem units_ofUnits {us : List ℕ} (hus : ∀ u ∈ us, u < 0x10000) : (ofUnits us).units = us := by
  induction us using ofUnits.induct with
  | case1 u v us hpair ih =>
    rw [Bool.and_eq_true] at hpair
    rw [ofUnits, if_pos (by rw [hpair.1, hpair.2]; rfl), Text.units_cons,
      units_pair hpair.1 hpair.2, ih fun w hw => hus w (by simp [hw])]
    rfl
  | case2 u v us hpair ih =>
    rw [ofUnits, if_neg hpair, Text.units_cons, units_unitPoint (hus u List.mem_cons_self),
      ih fun w hw => hus w (List.mem_cons_of_mem _ hw)]
    rfl
  | case3 u =>
    rw [ofUnits, Text.units_cons, units_unitPoint (hus u List.mem_cons_self)]
    rfl
  | case4 => rfl

/-! ## 6. Numbers as they are written -/

theorem toDigits_eq_append {m : ℕ} (hm : 10 ≤ m) :
    Nat.toDigits 10 m = Nat.toDigits 10 (m / 10) ++ [Nat.digitChar (m % 10)] :=
  Nat.toDigits_of_base_le (by decide) hm

/-- No zero is written in front. -/
theorem eq_zero_of_head (m : ℕ) (h : (Nat.toDigits 10 m).head? = some '0') : m = 0 := by
  induction m using Nat.strongRecOn with
  | ind m ih =>
    by_cases hm : m < 10
    · have hdigit : ∀ d < 10, Nat.digitChar d = '0' → d = 0 := by decide
      rw [Nat.toDigits_of_lt_base hm] at h
      exact hdigit m hm (Option.some.inj h)
    · rw [toDigits_eq_append (by omega), List.head?_append_of_ne_nil _ Nat.toDigits_ne_nil] at h
      have hdiv := ih (m / 10) (by omega) h
      omega

theorem isWhole_toDigits (m : ℕ) : isWhole (Nat.toDigits 10 m) = true := by
  have hdigits : (Nat.toDigits 10 m).all Char.isDigit = true := by
    rw [List.all_eq_true]
    exact fun c hc => Nat.isDigit_of_mem_toDigits (by decide) le_rfl hc
  simp only [isWhole, decide_eq_true_eq]
  refine ⟨Nat.toDigits_ne_nil, hdigits, fun hzero => ?_⟩
  rw [eq_zero_of_head m hzero, Nat.toDigits_zero]
  rfl

theorem toList_toString (n : ℤ) :
    (toString n).toList = Nat.toDigits 10 n.natAbs ∧ 0 ≤ n ∨
      (toString n).toList = '-' :: Nat.toDigits 10 n.natAbs ∧ n < 0 := by
  cases n with
  | ofNat m => exact .inl ⟨Nat.toList_repr, Int.natCast_nonneg m⟩
  | negSucc m =>
    refine .inr ⟨?_, Int.negSucc_lt_zero m⟩
    have hsign : (toString (Int.negSucc m)).toList = "-".toList ++ (Nat.repr (m + 1)).toList :=
      String.toList_append
    rw [hsign, Nat.toList_repr]
    rfl

theorem unsigned_toDigits (m : ℕ) : unsigned (Nat.toDigits 10 m) = Nat.toDigits 10 m := by
  cases h : Nat.toDigits 10 m with
  | nil => rfl
  | cons c ds =>
    have hc : c.isDigit = true :=
      Nat.isDigit_of_mem_toDigits (by decide) le_rfl (h ▸ List.mem_cons_self)
    unfold unsigned
    split
    · next heq =>
      rw [(List.cons.inj heq).1] at hc
      exact absurd hc (by decide)
    · rfl

theorem intOf_of_unsigned {cs : List Char} (h : unsigned cs = cs) :
    intOf cs = (Nat.ofDigitChars 10 cs 0 : ℕ) := by
  unfold intOf
  split
  · exact absurd (congrArg List.length h) (by simp [unsigned])
  · rfl

/-- What follows a number is no part of it. -/
def Stops (rest : Text) : Prop := ∀ c ∈ rest.head?, isNumberChar c = false

theorem takeWhile_stops {t rest : Text} (ht : ∀ c ∈ t, isNumberChar c = true) (hrest : Stops rest) :
    (t ++ rest).takeWhile isNumberChar = t ∧ (t ++ rest).dropWhile isNumberChar = rest := by
  rw [List.takeWhile_append_of_pos ht, List.dropWhile_append_of_pos ht]
  cases rest with
  | nil => exact ⟨List.append_nil t, rfl⟩
  | cons c rest =>
    have hc := hrest c rfl
    rw [List.takeWhile_cons_of_neg (by rw [hc]; decide),
      List.dropWhile_cons_of_neg (by rw [hc]; decide)]
    exact ⟨List.append_nil t, rfl⟩

theorem isNumberChar_of_isDigit {c : Char} (h : c.isDigit = true) :
    isNumberChar (.scalar c) = true := by
  rw [isNumberChar, h, Bool.true_or]

theorem isNumberChar_toString (n : ℤ) :
    ∀ c ∈ (toString n).toList, isNumberChar (.scalar c) = true := by
  have hdigits : ∀ c ∈ Nat.toDigits 10 n.natAbs, isNumberChar (.scalar c) = true :=
    fun c hc => isNumberChar_of_isDigit (Nat.isDigit_of_mem_toDigits (by decide) le_rfl hc)
  rcases toList_toString n with ⟨hlist, -⟩ | ⟨hlist, -⟩
  · rw [hlist]
    exact hdigits
  · rw [hlist]
    exact List.forall_mem_cons.mpr ⟨rfl, hdigits⟩

section Reader

variable [PyFloatRepr]

/-- **An integer** is read as it was written. -/
theorem numberOf_toString (n : ℤ) : numberOf (toString n).toList = some (.int n) := by
  have hvalue : Nat.ofDigitChars 10 (Nat.toDigits 10 n.natAbs) 0 = n.natAbs :=
    Nat.ofDigitChars_ten_toDigits
  rcases toList_toString n with ⟨hlist, hsign⟩ | ⟨hlist, hsign⟩
  · have hdigits := unsigned_toDigits n.natAbs
    rw [numberOf, hlist, isInt, hdigits, isWhole_toDigits, if_pos rfl, intOf_of_unsigned hdigits,
      hvalue]
    congr 2
    omega
  · rw [numberOf, hlist, isInt, unsigned, isWhole_toDigits, if_pos rfl, intOf, hvalue]
    congr 2
    omega

theorem readScalar_number {token : String} {j : JsonTree}
    (htoken : ∀ c ∈ token.toList, isNumberChar (.scalar c) = true)
    (hj : numberOf token.toList = some j)
    {rest : Text} (hrest : Stops rest) :
    readScalar (Text.of token ++ rest) = some (j, rest) := by
  have hchars : ∀ c ∈ Text.of token, isNumberChar c = true := by
    intro c hc
    obtain ⟨ch, hch, rfl⟩ := List.mem_map.mp hc
    exact htoken ch hch
  obtain ⟨htake, hdrop⟩ := takeWhile_stops hchars hrest
  have htoken : (Text.of token).filterMap CodePoint.char? = token.toList := by
    simp [Text.of, List.filterMap_map, Function.comp_def, CodePoint.char?]
  rw [readScalar, readNumber, htake, hdrop, htoken, hj]
  rfl

/-- `float` reads the text as the float that it is the `repr` of. -/
def IsFloatRepr (repr : String) : Prop :=
  repr ∈ ["NaN", "Infinity", "-Infinity"] ∨
    (∀ c ∈ repr.toList, isNumberChar (.scalar c) = true) ∧ numberOf repr.toList = some (.float repr)

theorem readScalar_name {e : String × JsonTree} (he : e ∈ NAMES) (rest : Text) :
    readScalar (Text.of e.1 ++ rest) = some (e.2, rest) := by
  simp only [NAMES, List.mem_cons, List.not_mem_nil, or_false] at he
  rcases he with rfl | rfl | rfl | rfl | rfl | rfl <;> rfl

end Reader

end Python.Loads
