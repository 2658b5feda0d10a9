/-
# Python texts and bytes

A Python text is a sequence of code points, and a surrogate may stand in it by itself.  Only a
text without surrogates can be encoded (`Text.encode`); such a text is a Lean `String`
(`encode_eq_some_iff`).

Byte strings, the hexadecimal texts they are written as and read from, and the digests of them.
`fromhex` reads what `hex` writes (`fromhex_hex`); it also reads capitals and blanks.
-/
import Mathlib.Algebra.GroupWithZero.Nat
import Mathlib.Data.List.Sort
import Mathlib.Data.String.Basic

namespace Python

/-! ## 1. Texts -/

/-- There are surrogates. -/
instance neZeroSurrogates : NeZero 2048 := ⟨by decide⟩

/-- A Unicode scalar value, or a surrogate. -/
inductive CodePoint
  | scalar (c : Char)
  | surrogate (n : Fin 2048)
  deriving DecidableEq

namespace CodePoint

def ord : CodePoint → ℕ
  | scalar c => c.toNat
  | surrogate n => 0xd800 + n

/-- What UTF-8 can encode. -/
def char? : CodePoint → Option Char
  | scalar c => some c
  | surrogate _ => none

end CodePoint

abbrev Text : Type := List CodePoint

/-- Texts are compared by their code points. -/
instance : LawfulBEq Text := inferInstanceAs (LawfulBEq (List CodePoint))

namespace Text

/-- The text of a `String`. -/
def of (s : String) : Text := s.toList.map .scalar

theorem length_of (s : String) : (of s).length = s.length := by
  simp [of, String.length_toList]

/-- `text.encode("utf-8")`; a lone surrogate raises. -/
def encode (t : Text) : Option String := (t.mapM CodePoint.char?).map String.ofList

theorem mapM_char? (cs : List Char) :
    (cs.map CodePoint.scalar).mapM CodePoint.char? = some cs := by
  induction cs with
  | nil => rfl
  | cons c cs ih => simp [ih, CodePoint.char?]

@[simp] theorem encode_of (s : String) : (of s).encode = some s := by
  rw [encode, of, mapM_char?]
  simp

theorem of_injective : Function.Injective of := fun s s' h => by
  have hencode := congrArg encode h
  simpa using hencode

theorem eq_of_mapM_char? {t : Text} {cs : List Char} (h : t.mapM CodePoint.char? = some cs) :
    t = cs.map CodePoint.scalar := by
  induction t generalizing cs with
  | nil =>
    cases h
    rfl
  | cons c t ih =>
    cases c with
    | surrogate n => simp [CodePoint.char?] at h
    | scalar c =>
      rw [List.mapM_cons] at h
      cases hrest : t.mapM CodePoint.char? with
      | none => simp [CodePoint.char?, hrest] at h
      | some rest =>
        have hcs : c :: rest = cs := by simpa [CodePoint.char?, hrest] using h
        rw [← hcs, ih hrest, List.map_cons]

/-- **The texts that can be encoded** are those of the `String`s. -/
theorem encode_eq_some_iff {t : Text} {s : String} : t.encode = some s ↔ t = of s := by
  constructor
  · intro h
    obtain ⟨cs, hcs, rfl⟩ := Option.map_eq_some_iff.mp h
    simpa [of] using eq_of_mapM_char? hcs
  · rintro rfl
    exact encode_of s

/-- No surrogate stands in it. -/
def Encodable (t : Text) : Prop := ∀ c ∈ t, c.char?.isSome = true

theorem encodable_of (s : String) : (of s).Encodable := by
  intro c hc
  obtain ⟨ch, -, rfl⟩ := List.mem_map.mp hc
  rfl

theorem Encodable.append {t t' : Text} (h : t.Encodable) (h' : t'.Encodable) :
    (t ++ t').Encodable := by
  intro c hc
  rcases List.mem_append.mp hc with hc | hc
  · exact h c hc
  · exact h' c hc

theorem Encodable.scalar_cons {t : Text} (c : Char) (h : t.Encodable) :
    Encodable (.scalar c :: t) := by
  intro c' hc'
  rcases List.mem_cons.mp hc' with rfl | hc'
  · rfl
  · exact h c' hc'

theorem Encodable.exists_of {t : Text} (h : t.Encodable) : ∃ s, t = of s := by
  induction t with
  | nil => exact ⟨"", rfl⟩
  | cons c t ih =>
    cases c with
    | surrogate n =>
      have hnot := h (.surrogate n) List.mem_cons_self
      simp [CodePoint.char?] at hnot
    | scalar c =>
      obtain ⟨s, rfl⟩ := ih fun c' hc' => h c' (List.mem_cons_of_mem _ hc')
      exact ⟨String.ofList (c :: s.toList), by simp [of]⟩

/-- The characters of a text, without its surrogates. -/
def chars (t : Text) : String := String.ofList (t.filterMap CodePoint.char?)

@[simp] theorem chars_of (s : String) : (of s).chars = s := by
  simp [chars, of, List.filterMap_map, Function.comp_def, CodePoint.char?]

theorem Encodable.encode {t : Text} (h : t.Encodable) : t.encode = some t.chars := by
  obtain ⟨s, rfl⟩ := h.exists_of
  simp

/-- The characters that `strip` takes off. -/
def isSpace (c : Char) : Bool :=
  let n := c.toNat
  (0x09 ≤ n ∧ n ≤ 0x0d) ∨ (0x1c ≤ n ∧ n ≤ 0x20) ∨ (0x2000 ≤ n ∧ n ≤ 0x200a) ∨
    n ∈ [0x85, 0xa0, 0x1680, 0x2028, 0x2029, 0x202f, 0x205f, 0x3000]

/-- `not text.strip()`. -/
def isBlank (s : String) : Bool := s.toList.all isSpace

/-- The order of texts: by the numbers of their code points. -/
def le (s t : Text) : Prop := s.map CodePoint.ord ≤ t.map CodePoint.ord

instance : DecidableRel le := fun s t =>
  inferInstanceAs (Decidable (s.map CodePoint.ord ≤ t.map CodePoint.ord))

end Text

/-! ## 2. Bytes -/

/-- There are bytes. -/
instance neZeroBytes : NeZero 256 := ⟨by decide⟩

abbrev Bytes : Type := List (Fin 256)

/-! ## 3. Hexadecimal texts -/

def hexByte (b : Fin 256) : Text :=
  [.scalar (Nat.digitChar (b / 16)), .scalar (Nat.digitChar (b % 16))]

/-- `data.hex()`. -/
def hex (data : Bytes) : Text := data.flatMap hexByte

def hexDigit? : CodePoint → Option ℕ
  | .scalar c =>
    let n := c.toNat
    if 0x30 ≤ n ∧ n ≤ 0x39 then some (n - 0x30)
    else if 0x41 ≤ n ∧ n ≤ 0x46 then some (n - 0x41 + 10)
    else if 0x61 ≤ n ∧ n ≤ 0x66 then some (n - 0x61 + 10)
    else none
  | .surrogate _ => none

/-- What `fromhex` skips. -/
def isAsciiSpace : CodePoint → Bool
  | .scalar c => (0x09 ≤ c.toNat ∧ c.toNat ≤ 0x0d) ∨ c = ' '
  | .surrogate _ => false

/-- `bytes.fromhex(text)`; anything but pairs of digits raises. -/
def fromhex : Text → Option Bytes
  | [] => some []
  | c :: text =>
    if isAsciiSpace c then fromhex text
    else match text with
      | [] => none
      | d :: text => do
        let high ← hexDigit? c
        let low ← hexDigit? d
        return Fin.ofNat 256 (16 * high + low) :: (← fromhex text)

theorem hexDigit_digitChar : ∀ n < 16, hexDigit? (.scalar (Nat.digitChar n)) = some n := by
  decide

theorem not_isAsciiSpace_digitChar :
    ∀ n < 16, isAsciiSpace (.scalar (Nat.digitChar n)) = false := by
  decide

/-- **What is written** is read. -/
theorem fromhex_hex (data : Bytes) : fromhex (hex data) = some data := by
  induction data with
  | nil => rfl
  | cons b data ih =>
    have hb := b.isLt
    have hhigh : (b : ℕ) / 16 < 16 := by omega
    have hlow : (b : ℕ) % 16 < 16 := by omega
    have hbyte : Fin.ofNat 256 (16 * (b / 16) + b % 16) = b := by
      apply Fin.ext
      rw [Fin.val_ofNat]
      omega
    have hrest : data.flatMap hexByte = hex data := rfl
    rw [hex, List.flatMap_cons, hexByte, List.cons_append, List.singleton_append, fromhex,
      not_isAsciiSpace_digitChar _ hhigh, if_neg Bool.false_ne_true, hrest]
    simp only [hexDigit_digitChar _ hhigh, hexDigit_digitChar _ hlow, ih, hbyte,
      Option.pure_def, Option.bind_eq_bind, Option.bind_some]

theorem hex_injective : Function.Injective hex := fun data data' h => by
  have hread := congrArg fromhex h
  rwa [fromhex_hex, fromhex_hex, Option.some.injEq] at hread

/-! ## 4. Digests -/

/-- The 32 bytes of a SHA-256 digest. -/
structure Digest where
  bytes : Bytes
  length_eq : bytes.length = 32
  deriving DecidableEq

theorem Digest.bytes_injective : Function.Injective Digest.bytes := fun d d' h => by
  cases d
  cases d'
  cases h
  rfl

/-- `d.hex()`. -/
def Digest.hex (d : Digest) : Text := Python.hex d.bytes

theorem Digest.hex_injective : Function.Injective Digest.hex :=
  Python.hex_injective.comp bytes_injective

@[simp] theorem Digest.fromhex_hex (d : Digest) : fromhex d.hex = some d.bytes :=
  Python.fromhex_hex d.bytes

/-- Two digests, one after the other, can be told apart. -/
theorem Digest.append_inj {c c' d d' : Digest} (h : c.bytes ++ d.bytes = c'.bytes ++ d'.bytes) :
    c = c' ∧ d = d' := by
  obtain ⟨hc, hd⟩ := List.append_inj h (c.length_eq.trans c'.length_eq.symm)
  exact ⟨bytes_injective hc, bytes_injective hd⟩

/-- `hashlib` and `hmac` on bytes; the message of `hmac` is the text that is encoded. -/
class HashBytes where
  /-- `hashlib.sha256(data).digest()` -/
  sha256 : Bytes → Digest
  /-- `hmac.new(secret, message.encode(), hashlib.sha256).hexdigest()` -/
  hmac : Bytes → String → String

end Python
