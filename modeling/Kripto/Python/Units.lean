/-
# What JSON in ASCII tells apart

With `ensure_ascii` a text is written by its UTF-16 code units: a character beyond the 16-bit ones
is written like the two surrogates that stand for it, so the texts `"\ud83d\ude00"` and
`"\U0001f600"`, which Python tells apart, are written alike.

* `quote_append_inj`: what is written in quotes determines the code units (and where it ends);
* `writeDict_inj`: so does an object with the same keys, field by field;
* `units_inj`: code units determine the text if no two surrogates in it make a pair.

Python compares texts by the numbers of their code points.  The order is linear, since a code point
is known by its number (`ord_injective`).
-/
import Kripto.Python.Text
import Kripto.Python.Json

namespace Python

/-! ## 1. Code units -/

def CodePoint.units : CodePoint → List ℕ
  | .scalar c =>
    if c.toNat < 0x10000 then [c.toNat]
    else [0xd800 + (c.toNat - 0x10000) / 0x400, 0xdc00 + (c.toNat - 0x10000) % 0x400]
  | .surrogate n => [0xd800 + n]

/-- The UTF-16 code units of a text. -/
def Text.units (t : Text) : List ℕ := t.flatMap CodePoint.units

/-- Two surrogates that stand for a character. -/
def CodePoint.Pair : CodePoint → CodePoint → Prop
  | .surrogate high, .surrogate low => (high : ℕ) < 0x400 ∧ 0x400 ≤ (low : ℕ)
  | _, _ => False

/-- No two surrogates make a pair. -/
def Text.NoPair (t : Text) : Prop := t.IsChain fun c d => ¬ c.Pair d

theorem toNat_lt (c : Char) : c.toNat < 0xd800 ∨ 0xdfff < c.toNat ∧ c.toNat < 0x110000 := by
  have hvalid := c.valid
  simp only [UInt32.isValidChar, Nat.isValidChar] at hvalid
  simp only [Char.toNat]
  omega

namespace CodePoint

theorem units_ne_nil (c : CodePoint) : c.units ≠ [] := by
  cases c with
  | scalar c =>
    dsimp only [units]
    split_ifs <;> exact List.cons_ne_nil _ _
  | surrogate n => exact List.cons_ne_nil _ _

/-- What a code point can be, by its units. -/
theorem units_cases (c : CodePoint) :
    (∃ ch : Char, c = .scalar ch ∧ c.units = [ch.toNat] ∧
      (ch.toNat < 0xd800 ∨ 0xdfff < ch.toNat ∧ ch.toNat < 0x10000)) ∨
    (∃ ch : Char, ∃ high < 0x400, ∃ low < 0x400, c = .scalar ch ∧
      c.units = [0xd800 + high, 0xdc00 + low] ∧ ch.toNat = 0x10000 + 0x400 * high + low) ∨
    ∃ n : Fin 2048, c = .surrogate n ∧ c.units = [0xd800 + (n : ℕ)] := by
  cases c with
  | scalar ch =>
    have hvalid := toNat_lt ch
    by_cases hsmall : ch.toNat < 0x10000
    · exact .inl ⟨ch, rfl, if_pos hsmall, by omega⟩
    · exact .inr (.inl ⟨ch, (ch.toNat - 0x10000) / 0x400, by omega, (ch.toNat - 0x10000) % 0x400,
        by omega, rfl, if_neg hsmall, by omega⟩)
  | surrogate n => exact .inr (.inr ⟨n, rfl, rfl⟩)

end CodePoint

namespace Text

theorem units_cons (c : CodePoint) (t : Text) : units (c :: t) = c.units ++ units t := rfl

/-- A low surrogate comes first only by itself. -/
theorem exists_low {t : Text} {low : ℕ} {us : List ℕ} (hlow : low < 0x400)
    (h : t.units = (0xdc00 + low) :: us) :
    ∃ (n : Fin 2048) (t' : Text), t = .surrogate n :: t' ∧ 0x400 ≤ (n : ℕ) := by
  cases t with
  | nil => cases h
  | cons c t =>
    rw [units_cons] at h
    rcases c.units_cases with ⟨ch, rfl, hc, hrange⟩ | ⟨ch, high, hhigh, low', -, rfl, hc, -⟩ |
      ⟨n, rfl, hc⟩ <;> rw [hc] at h
    · have hhead := (List.cons.inj h).1
      omega
    · have hhead := (List.cons.inj h).1
      omega
    · have hhead := (List.cons.inj h).1
      exact ⟨n, t, rfl, by omega⟩

/-- A text that can be encoded has no surrogates at all. -/
theorem Encodable.noPair {t : Text} (h : t.Encodable) : t.NoPair := by
  obtain ⟨s, rfl⟩ := h.exists_of
  have hnone : (of s).Pairwise fun c d => ¬ c.Pair d :=
    List.pairwise_map.mpr (List.pairwise_of_forall fun _ _ => id)
  exact hnone.isChain

theorem NoPair.tail {c : CodePoint} {t : Text} (h : NoPair (c :: t)) : NoPair t :=
  List.IsChain.of_cons h

theorem not_noPair {n : Fin 2048} {t : Text} {low : ℕ} {us : List ℕ} (hhigh : (n : ℕ) < 0x400)
    (hlow : low < 0x400) (h : t.units = (0xdc00 + low) :: us) : ¬ NoPair (.surrogate n :: t) := by
  intro hpair
  obtain ⟨m, t, rfl, hm⟩ := exists_low hlow h
  exact (List.isChain_cons_cons.mp hpair).1 ⟨hhigh, hm⟩

/-- **Code units** determine a text without pairs. -/
theorem units_inj {t t' : Text} (ht : t.NoPair) (ht' : t'.NoPair) (h : t.units = t'.units) :
    t = t' := by
  induction t generalizing t' with
  | nil =>
    cases t' with
    | nil => rfl
    | cons c' t' => exact absurd (List.append_eq_nil_iff.mp h.symm).1 c'.units_ne_nil
  | cons c t ih =>
    cases t' with
    | nil => exact absurd (List.append_eq_nil_iff.mp h).1 c.units_ne_nil
    | cons c' t' =>
      suffices c = c' ∧ units t = units t' by
        rw [this.1, ih ht.tail ht'.tail this.2]
      rw [units_cons, units_cons] at h
      rcases c.units_cases with ⟨ch, rfl, hc, hrange⟩ | ⟨ch, high, hhigh, low, hlow, rfl, hc, hch⟩ |
        ⟨n, rfl, hc⟩ <;>
      rcases c'.units_cases with ⟨ch', rfl, hc', hrange'⟩ |
        ⟨ch', high', hhigh', low', hlow', rfl, hc', hch'⟩ | ⟨n', rfl, hc'⟩ <;>
      rw [hc, hc'] at h <;>
      obtain ⟨hhead, hrest⟩ := List.cons.inj h
      · rw [Char.toNat_inj.mp hhead]
        exact ⟨rfl, hrest⟩
      · omega
      · omega
      · omega
      · obtain ⟨hsecond, hrest⟩ := List.cons.inj hrest
        have hchar : ch = ch' := Char.toNat_inj.mp (by omega)
        exact ⟨congrArg _ hchar, hrest⟩
      · exact absurd ht' (not_noPair (by omega) hlow hrest.symm)
      · omega
      · exact absurd ht (not_noPair (by omega) hlow' hrest)
      · have hsame : n = n' := Fin.ext (by omega)
        exact ⟨congrArg _ hsame, hrest⟩

end Text

/-! ## 2. Texts in quotes -/

/-- What is written for a code unit. -/
def escapeUnit (u : ℕ) : Text :=
  if 0xd800 ≤ u ∧ u ≤ 0xdfff then unicodeEscape u else escapeChar true (Char.ofNat u)

/-- The characters that have an escape of their own, by its letter. -/
def UNESCAPE_DCT : List (CodePoint × ℕ) :=
  [(.scalar '\\', 0x5c), (.scalar '"', 0x22), (.scalar 'b', 0x08), (.scalar 'f', 0x0c),
    (.scalar 'n', 0x0a), (.scalar 'r', 0x0d), (.scalar 't', 0x09)]

/-- What follows a backslash. -/
def readEscape : Text → Option (ℕ × Text)
  | [] => none
  | e :: text =>
    match UNESCAPE_DCT.lookup e, text with
    | some u, text => some (u, text)
    | none, a :: b :: c :: d :: text => do
      return (4096 * (← hexDigit? a) + 256 * (← hexDigit? b) + 16 * (← hexDigit? c) +
        (← hexDigit? d), text)
    | none, _ => none

/-- The first code unit that is written, unless the quotes end. -/
def readUnit : Text → Option (ℕ × Text)
  | .scalar c :: text =>
    if c = '"' then none
    else if c = '\\' then readEscape text
    else some (c.toNat, text)
  | _ => none

theorem readUnit_unicodeEscape {n : ℕ} (hn : n < 0x10000) (text : Text) :
    readUnit (unicodeEscape n ++ text) = some (n, text) := by
  have hdigits :
      4096 * (n / 4096 % 16) + 256 * (n / 256 % 16) + 16 * (n / 16 % 16) + n % 16 = n := by
    omega
  have hread : ∀ k, hexDigit? (.scalar (Nat.digitChar (k % 16))) = some (k % 16) :=
    fun k => hexDigit_digitChar _ (Nat.mod_lt _ (by omega))
  have hescape : UNESCAPE_DCT.lookup (.scalar 'u') = none := rfl
  simp only [unicodeEscape, hex4, List.map_cons, List.map_nil, List.cons_append, List.nil_append,
    readUnit, if_neg (by decide : ¬ '\\' = '"'), if_pos, readEscape, hescape, hread,
    Option.bind_eq_bind, Option.bind_some, Option.pure_def, hdigits]

theorem readUnit_escapeChar (c : Char) (hc : c.toNat < 0x10000) (text : Text) :
    readUnit (escapeChar true c ++ text) = some (c.toNat, text) := by
  cases hlookup : ESCAPE_DCT.lookup c with
  | some escaped =>
    have hall : ∀ e ∈ ESCAPE_DCT, readUnit (Text.of e.2 ++ text) = some (e.1.toNat, text) := by
      simp only [ESCAPE_DCT, List.forall_mem_cons]
      exact ⟨rfl, rfl, rfl, rfl, rfl, rfl, rfl, nofun⟩
    rw [escapeChar, hlookup]
    exact hall _ (mem_of_lookup hlookup)
  | none =>
    have hquote : c ≠ '"' := by
      rintro rfl
      exact absurd hlookup (by decide)
    have hbackslash : c ≠ '\\' := by
      rintro rfl
      exact absurd hlookup (by decide)
    rw [escapeChar, hlookup]
    dsimp only
    split_ifs with hcontrol hascii
    · exact readUnit_unicodeEscape hc text
    · rw [asciiEscape, if_pos hc]
      exact readUnit_unicodeEscape hc text
    · rw [List.singleton_append, readUnit, if_neg hquote, if_neg hbackslash]

theorem toNat_ofNat {u : ℕ} (h : u.isValidChar) : (Char.ofNat u).toNat = u := by
  rw [Char.ofNat, dif_pos h]
  rfl

/-- **A code unit** is read as it was written. -/
theorem readUnit_escapeUnit {u : ℕ} (hu : u < 0x10000) (text : Text) :
    readUnit (escapeUnit u ++ text) = some (u, text) := by
  unfold escapeUnit
  split_ifs with hsurrogate
  · exact readUnit_unicodeEscape hu text
  · have hvalid : u.isValidChar := by
      simp only [Nat.isValidChar]
      omega
    have hnat := toNat_ofNat hvalid
    rw [readUnit_escapeChar _ (by omega), hnat]

theorem units_lt {c : CodePoint} {u : ℕ} (hu : u ∈ c.units) : u < 0x10000 := by
  rcases c.units_cases with ⟨ch, -, hc, hrange⟩ | ⟨ch, high, hhigh, low, hlow, -, hc, -⟩ |
    ⟨n, -, hc⟩ <;> rw [hc] at hu
  · rw [List.mem_singleton.mp hu]
    omega
  · simp only [List.mem_cons, List.not_mem_nil, or_false] at hu
    omega
  · have hn := n.isLt
    rw [List.mem_singleton.mp hu]
    omega

theorem escapeUnit_surrogate {u : ℕ} (h : 0xd800 ≤ u ∧ u ≤ 0xdfff) :
    escapeUnit u = unicodeEscape u := if_pos h

/-- A code point is written by its units. -/
theorem escape_eq_units (c : CodePoint) : escape true c = c.units.flatMap escapeUnit := by
  cases c with
  | surrogate n =>
    have hn := n.isLt
    simp only [escape, if_true, CodePoint.units, List.flatMap_cons, List.flatMap_nil,
      List.append_nil]
    rw [escapeUnit_surrogate (by omega)]
  | scalar ch =>
    have hvalid := toNat_lt ch
    by_cases hsmall : ch.toNat < 0x10000
    · have hunit : escapeUnit ch.toNat = escapeChar true ch := by
        rw [escapeUnit, if_neg (by omega), Char.ofNat_toNat]
      simp [escape, CodePoint.units, hsmall, hunit]
    · have hlookup : ESCAPE_DCT.lookup ch = none := by
        rw [List.lookup_eq_none_iff]
        intro e he
        simp only [ESCAPE_DCT, List.mem_cons, List.not_mem_nil, or_false] at he
        rw [bne_iff_ne]
        rcases he with rfl | rfl | rfl | rfl | rfl | rfl | rfl <;> rintro rfl <;>
          exact hsmall (by decide)
      have hcontrol : ¬ ch.toNat < 0x20 := by omega
      have hbeyond : true = true ∧ 0x7e < ch.toNat := ⟨rfl, by omega⟩
      have hchar : escapeChar true ch = asciiEscape ch.toNat := by
        rw [escapeChar, hlookup]
        dsimp only
        rw [if_neg hcontrol, if_pos hbeyond]
      simp only [escape, hchar, asciiEscape, if_neg hsmall, CodePoint.units, List.flatMap_cons,
        List.flatMap_nil, List.append_nil]
      rw [escapeUnit_surrogate (by omega), escapeUnit_surrogate (by omega)]

theorem flatMap_escape (s : Text) : s.flatMap (escape true) = s.units.flatMap escapeUnit := by
  rw [Text.units, List.flatMap_assoc]
  exact List.flatMap_congr fun c _ => escape_eq_units c

/-- Code units can be read up to the end of the quotes. -/
theorem escapeUnits_inj {us us' : List ℕ} (hus : ∀ u ∈ us, u < 0x10000)
    (hus' : ∀ u ∈ us', u < 0x10000) {rest rest' : Text}
    (h : us.flatMap escapeUnit ++ .scalar '"' :: rest =
      us'.flatMap escapeUnit ++ .scalar '"' :: rest') : us = us' ∧ rest = rest' := by
  have hend : ∀ rest, readUnit (.scalar '"' :: rest) = none := fun rest => rfl
  induction us generalizing us' with
  | nil =>
    cases us' with
    | nil => exact ⟨rfl, (List.cons.inj h).2⟩
    | cons u' us' =>
      have hread := congrArg readUnit h
      rw [List.flatMap_cons, List.append_assoc, readUnit_escapeUnit (hus' u' List.mem_cons_self)]
        at hread
      exact absurd ((hend rest).symm.trans hread) nofun
  | cons u us ih =>
    have hread := congrArg readUnit h
    rw [List.flatMap_cons, List.append_assoc, readUnit_escapeUnit (hus u List.mem_cons_self)]
      at hread
    cases us' with
    | nil => exact absurd (hread.trans (hend rest')) nofun
    | cons u' us' =>
      rw [List.flatMap_cons, List.append_assoc, readUnit_escapeUnit (hus' u' List.mem_cons_self),
        Option.some.injEq, Prod.mk.injEq] at hread
      obtain ⟨rfl, hafter⟩ := hread
      obtain ⟨rfl, hrest⟩ := ih (fun u hu => hus u (List.mem_cons_of_mem _ hu))
        (fun u hu => hus' u (List.mem_cons_of_mem _ hu)) hafter
      exact ⟨rfl, hrest⟩

/-- **A text in quotes** determines the code units, and where it ends. -/
theorem quote_append_inj {s s' rest rest' : Text}
    (h : quote true s ++ rest = quote true s' ++ rest') : s.units = s'.units ∧ rest = rest' := by
  have hlt : ∀ s : Text, ∀ u ∈ s.units, u < 0x10000 := by
    intro s u hu
    obtain ⟨c, -, hu⟩ := List.mem_flatMap.mp hu
    exact units_lt hu
  simp only [quote, List.cons_append, List.append_assoc, List.cons.injEq, true_and,
    List.nil_append, flatMap_escape] at h
  exact escapeUnits_inj (hlt s) (hlt s') h

theorem quote_congr {s s' : Text} (h : s.units = s'.units) : quote true s = quote true s' := by
  rw [quote, quote, flatMap_escape, flatMap_escape, h]

/-! ## 3. Objects -/

/-- A field as it is written. -/
def writeField (e : Text × Text) : Text := quote true e.1 ++ .scalar ':' :: quote true e.2

theorem commas_append_inj {fields fields' : List (Text × Text)} {rest rest' : Text}
    (hkeys : fields.map Prod.fst = fields'.map Prod.fst)
    (h : commas (fields.map writeField) ++ rest = commas (fields'.map writeField) ++ rest') :
    fields.map (fun e => e.2.units) = fields'.map (fun e => e.2.units) := by
  induction fields generalizing fields' with
  | nil =>
    rw [List.map_nil, eq_comm, List.map_eq_nil_iff] at hkeys
    rw [hkeys]
  | cons e fields ih =>
    cases fields' with
    | nil => cases hkeys
    | cons e' fields' =>
      obtain ⟨hkey, hkeys⟩ := List.cons.inj hkeys
      have hfield : ∀ {after after' : Text}, writeField e ++ after = writeField e' ++ after' →
          e.2.units = e'.2.units ∧ after = after' := by
        intro after after' h
        rw [writeField, writeField, hkey, List.append_assoc, List.append_assoc] at h
        obtain ⟨-, hafter⟩ := List.cons.inj (List.append_cancel_left h)
        exact quote_append_inj hafter
      rw [List.map_cons, List.map_cons]
      match fields, fields', hkeys with
      | [], [], _ => rw [(hfield h).1, List.map_nil]
      | f :: fields, f' :: fields', hkeys =>
        simp only [List.map_cons, commas, List.append_assoc, List.cons_append] at h
        obtain ⟨he, hafter⟩ := hfield h
        rw [he, ih hkeys (List.cons.inj hafter).2]

/-- **An object** with known keys determines the code units of its fields. -/
theorem writeDict_inj {fields fields' : List (Text × Text)}
    (hkeys : fields.map Prod.fst = fields'.map Prod.fst)
    (h : writeDict true (fields.map fun e => (e.1, quote true e.2)) =
      writeDict true (fields'.map fun e => (e.1, quote true e.2))) :
    fields.map (fun e => e.2.units) = fields'.map (fun e => e.2.units) := by
  simp only [writeDict, List.map_map, List.append_assoc] at h
  exact commas_append_inj hkeys (List.append_cancel_left h)

/-! ## 4. The order of texts -/

theorem CodePoint.ord_injective : Function.Injective CodePoint.ord := by
  intro c d h
  cases c with
  | scalar c =>
    have hc := toNat_lt c
    cases d with
    | scalar d => rw [Char.toNat_inj.mp h]
    | surrogate n =>
      have hn := n.isLt
      simp only [ord] at h
      omega
  | surrogate n =>
    have hn := n.isLt
    cases d with
    | scalar d =>
      have hd := toNat_lt d
      simp only [ord] at h
      omega
    | surrogate m =>
      simp only [ord] at h
      rw [Fin.ext (by omega : (n : ℕ) = m)]

namespace Text

theorem le_total (s t : Text) : s.le t ∨ t.le s :=
  LinearOrder.le_total (s.map CodePoint.ord) (t.map CodePoint.ord)

theorem le_trans {s t u : Text} (h : s.le t) (h' : t.le u) : s.le u :=
  Preorder.le_trans _ _ _ h h'

theorem le_antisymm {s t : Text} (h : s.le t) (h' : t.le s) : s = t :=
  List.map_injective_iff.mpr CodePoint.ord_injective (PartialOrder.le_antisymm _ _ h h')

instance isTransLe : IsTrans Text le := ⟨fun _ _ _ => le_trans⟩

instance totalLe : Std.Total le := ⟨le_total⟩

end Text

end Python
