/-
# The lines of a file

Texts that are written one below the other, and read line by line.  With `ensure_ascii` the text
of a value has no line break in it (`oneLine_write`), nor any other character that cannot be
printed (`printable_write`), so the lines that are read are the texts that were written
(`lines_joinLines`).

`str.splitlines` and the lines of an open file differ in what ends a line (`lineBoundaries`,
`universalNewlines`).  A file is read here without its line ends.

* `linesAt_append`: what a text without line ends adds to a file is a line of its own, if the file
  is ended, and else the rest of its last line.
-/
import Kripto.Python.Parts
import Kripto.Python.ReadBack

namespace Python

open Loads

/-! ## 1. Texts below each other -/

/-- The end of a line. -/
abbrev newline : CodePoint := .scalar '\n'

/-- `"\n".join(parts) + "\n"`. -/
def joinLines (parts : List Text) : Text := [newline].intercalate parts ++ [newline]

/-- The lines of a text, but for the empty ones. -/
def Text.lines (t : Text) : List Text := (t.splitOn newline).filter fun line => line ≠ []

def Text.OneLine (t : Text) : Prop := newline ∉ t

/-- **The lines are the parts**, if none of these is empty or has a line break. -/
theorem lines_joinLines {parts : List Text} (hone : ∀ part ∈ parts, part.OneLine)
    (hne : ∀ part ∈ parts, part ≠ []) : (joinLines parts).lines = parts := by
  have hfilter : parts.filter (fun line => line ≠ []) = parts :=
    List.filter_eq_self.mpr fun part hpart => decide_eq_true (hne part hpart)
  have hsplit : (joinLines parts).splitOn newline =
      ([newline].intercalate parts).splitOn newline ++ [[]] :=
    List.splitOn_append_cons_self ([newline].intercalate parts) []
  rw [Text.lines, hsplit, List.filter_append]
  cases parts with
  | nil => rfl
  | cons part rest =>
    rw [List.splitOn_intercalate newline hone (List.cons_ne_nil part rest), hfilter]
    exact List.append_nil _

theorem encodable_joinLines {parts : List Text} (h : ∀ part ∈ parts, part.Encodable) :
    (joinLines parts).Encodable := by
  have hline : Text.Encodable [newline] := Text.encodable_of "\n"
  refine Text.Encodable.append ?_ hline
  induction parts with
  | nil => exact Text.encodable_of ""
  | cons part rest ih =>
    obtain ⟨hpart, hrest⟩ := List.forall_mem_cons.mp h
    cases rest with
    | nil => rwa [List.intercalate_singleton]
    | cons next rest =>
      rw [List.intercalate_cons_cons]
      exact (hpart.append hline).append (ih hrest)

/-! ## 2. Written on one line -/

/-- A character of ASCII that can be printed. -/
def isPrintable (c : Char) : Bool := 0x20 ≤ c.toNat && c.toNat ≤ 0x7e

/-- Only characters of ASCII that can be printed. -/
def Text.Printable (t : Text) : Prop := ∀ c ∈ t, 0x20 ≤ c.ord ∧ c.ord ≤ 0x7e

section Printable

variable {s t : Text}

theorem Text.printable_nil : Printable [] := List.forall_mem_nil _

theorem Text.Printable.append (hs : s.Printable) (ht : t.Printable) : (s ++ t).Printable :=
  List.forall_mem_append.mpr ⟨hs, ht⟩

theorem Text.Printable.cons {c : Char} (hc : 0x20 ≤ c.toNat ∧ c.toNat ≤ 0x7e) (ht : t.Printable) :
    Text.Printable (.scalar c :: t) := List.forall_mem_cons.mpr ⟨hc, ht⟩

theorem Text.Printable.beginning (h : t.Printable) (hs : s <+: t) : s.Printable :=
  fun c hc => h c (hs.subset hc)

theorem Text.Printable.oneLine (h : t.Printable) : t.OneLine := by
  intro hmem
  exact absurd (h newline hmem).1 (by decide)

theorem isPrintable_iff {c : Char} :
    isPrintable c = true ↔ 0x20 ≤ c.toNat ∧ c.toNat ≤ 0x7e := by
  rw [isPrintable, Bool.and_eq_true, decide_eq_true_eq, decide_eq_true_eq]

theorem printable_chars {cs : List Char} (h : cs.all isPrintable = true) :
    Text.Printable (cs.map .scalar) :=
  List.forall_mem_map.mpr fun c hc => isPrintable_iff.mp (List.all_eq_true.mp h c hc)

theorem printable_unicodeEscape (n : ℕ) : (unicodeEscape n).Printable := by
  have hdigit : ∀ d < 16, isPrintable (Nat.digitChar d) = true := by decide
  refine printable_chars (List.all_eq_true.mpr fun c hc => ?_)
  simp only [hex4, List.mem_cons, List.not_mem_nil, or_false] at hc
  rcases hc with rfl | rfl | rfl | rfl | rfl | rfl
  · decide
  · decide
  all_goals exact hdigit _ (Nat.mod_lt _ (by decide))

theorem printable_asciiEscape (n : ℕ) : (asciiEscape n).Printable := by
  unfold asciiEscape
  split
  · exact printable_unicodeEscape n
  · exact (printable_unicodeEscape _).append (printable_unicodeEscape _)

/-- Control characters, a line break among them, are escaped. -/
theorem printable_escapeChar (c : Char) : (escapeChar true c).Printable := by
  unfold escapeChar
  split
  · next escaped hescaped =>
    have hall : ESCAPE_DCT.all (fun e => e.2.toList.all isPrintable) = true := by decide
    exact printable_chars (List.all_eq_true.mp hall _ (mem_of_lookup hescaped))
  · split_ifs with hcontrol hascii
    · exact printable_unicodeEscape _
    · exact printable_asciiEscape _
    · rw [not_and, not_lt] at hascii
      exact Text.printable_nil.cons ⟨not_lt.mp hcontrol, hascii rfl⟩

theorem printable_quote (s : Text) : (quote true s).Printable := by
  have hbody : Text.Printable (s.flatMap (escape true)) := by
    intro c hc
    obtain ⟨c', -, hc⟩ := List.mem_flatMap.mp hc
    cases c' with
    | scalar ch => exact printable_escapeChar ch c hc
    | surrogate n => exact printable_unicodeEscape _ c hc
  exact (hbody.cons (by decide)).append (Text.printable_nil.cons (by decide))

theorem printable_commas {parts : List Text} (h : ∀ part ∈ parts, part.Printable) :
    (commas parts).Printable := by
  induction parts with
  | nil => exact Text.printable_nil
  | cons part rest ih =>
    have hrest := ih fun part hpart => h part (List.mem_cons_of_mem _ hpart)
    have hpart := h part List.mem_cons_self
    cases rest with
    | nil => exact hpart
    | cons next rest => exact hpart.append (hrest.cons (by decide))

theorem printable_numberChar {c : Char} (h : isNumberChar (.scalar c) = true) :
    0x20 ≤ c.toNat ∧ c.toNat ≤ 0x7e := by
  rw [isNumberChar, Bool.or_eq_true] at h
  rcases h with hdigit | hsign
  · simp only [Char.isDigit, Bool.and_eq_true, decide_eq_true_eq, ge_iff_le, UInt32.le_iff_toNat_le]
      at hdigit
    have hfirst : '0'.val.toNat = 0x30 := rfl
    have hlast : '9'.val.toNat = 0x39 := rfl
    rw [Char.toNat]
    omega
  · have hall : ['+', '-', '.', 'e', 'E'].all isPrintable = true := by decide
    exact isPrintable_iff.mp (List.all_eq_true.mp hall c (of_decide_eq_true hsign))

theorem printable_number {token : String}
    (h : ∀ c ∈ token.toList, isNumberChar (.scalar c) = true) : (Text.of token).Printable :=
  List.forall_mem_map.mpr fun c hc => printable_numberChar (h c hc)

variable [PyFloatRepr]

theorem printable_float {repr : String} (h : IsFloatRepr repr) : (Text.of repr).Printable := by
  rcases h with hname | ⟨hchars, -⟩
  · have hall : ["NaN", "Infinity", "-Infinity"].all (fun name => name.toList.all isPrintable) =
        true := by decide
    exact printable_chars (List.all_eq_true.mp hall repr hname)
  · exact printable_number hchars

/-- **A value is written in ASCII that can be printed**, so on one line. -/
theorem printable_write {j : JsonTree} (h : j.FloatsRead) : (j.write true).Printable := by
  induction j using JsonTree.induct with
  | null => exact printable_chars (by decide)
  | bool b => cases b <;> exact printable_chars (by decide)
  | int n => exact printable_number (isNumberChar_toString n)
  | float repr => exact printable_float (h repr (List.mem_singleton_self repr))
  | str s => exact printable_quote s
  | list items ih =>
    rw [JsonTree.FloatsRead, JsonTree.floats, JsonTree.floatsItems_eq] at h
    rw [JsonTree.write, writeItems_eq, writeList]
    refine ((printable_chars (by decide)).append (printable_commas ?_)).append
      (printable_chars (by decide))
    rw [List.forall_mem_map]
    exact fun j hj => ih j hj fun repr hrepr => h repr (List.mem_flatMap_of_mem hj hrepr)
  | dict fields ih =>
    rw [JsonTree.FloatsRead, JsonTree.floats, JsonTree.floatsFields_eq] at h
    rw [JsonTree.write, writeFields_eq, writeDict]
    refine ((printable_chars (by decide)).append (printable_commas ?_)).append
      (printable_chars (by decide))
    rw [List.map_map, List.forall_mem_map]
    intro e he
    have hvalue := ih e he fun repr hrepr => h repr (List.mem_flatMap.mpr ⟨e, he, hrepr⟩)
    exact (printable_quote e.1).append (hvalue.cons (by decide))

theorem oneLine_write {j : JsonTree} (h : j.FloatsRead) : (j.write true).OneLine :=
  (printable_write h).oneLine

end Printable

/-! ## 3. Line ends -/

/-- A character in front of the first line. -/
def consFirst (c : CodePoint) : List Text → List Text
  | [] => [[c]]
  | line :: lines => (c :: line) :: lines

/-- The lines of a text, without what ends them; a return and a newline end one line. -/
def Text.linesAt (isEnd : CodePoint → Bool) : Text → List Text
  | [] => []
  | .scalar '\r' :: .scalar '\n' :: t => [] :: linesAt isEnd t
  | c :: t => if isEnd c then [] :: linesAt isEnd t else consFirst c (linesAt isEnd t)

/-- The line ends of a file that is opened as text. -/
def universalNewlines : CodePoint → Bool
  | .scalar c => c ∈ ['\n', '\r']
  | .surrogate _ => false

/-- The line ends of `str.splitlines`. -/
def lineBoundaries : CodePoint → Bool
  | .scalar c => c.toNat ∈ [0x0a, 0x0b, 0x0c, 0x0d, 0x1c, 0x1d, 0x1e, 0x85, 0x2028, 0x2029]
  | .surrogate _ => false

/-- Nothing stands behind the last line end. -/
def Text.Ended (isEnd : CodePoint → Bool) (t : Text) : Prop := ∀ c ∈ t.getLast?, isEnd c = true

/-- No line ends in it. -/
def Text.Unended (isEnd : CodePoint → Bool) (p : Text) : Prop :=
  newline ∉ p ∧ ∀ c ∈ p, isEnd c = false

/-! ## 4. A line that is not ended -/

section LinesAt

variable {isEnd : CodePoint → Bool} {t p : Text} {c : CodePoint}

theorem linesAt_cons (h : ∀ t', c = .scalar '\r' → t ≠ newline :: t') :
    Text.linesAt isEnd (c :: t) =
      if isEnd c then [] :: t.linesAt isEnd else consFirst c (t.linesAt isEnd) := by
  rw [Text.linesAt]
  rintro t' rfl rfl
  exact h t' rfl rfl

theorem Text.Ended.cons (hc : isEnd c = true) (ht : t.Ended isEnd) : Ended isEnd (c :: t) := by
  cases t with
  | nil =>
    rintro d ⟨⟩
    exact hc
  | cons => exact ht

theorem Text.not_ended_cons (ht : ¬ t.Ended isEnd) : ¬ Ended isEnd (c :: t) := by
  cases t with
  | nil => exact absurd nofun ht
  | cons => exact ht

theorem consFirst_append {lines : List Text} (hne : lines ≠ []) (more : List Text) :
    consFirst c (lines ++ more) = consFirst c lines ++ more := by
  cases lines with
  | nil => exact absurd rfl hne
  | cons line lines => rfl

theorem consFirst_concat (lines : List Text) (line : Text) :
    ∃ lines' line', consFirst c (lines ++ [line]) = lines' ++ [line'] ∧
      ∀ p, consFirst c (lines ++ [line ++ p]) = lines' ++ [line' ++ p] := by
  cases lines with
  | nil => exact ⟨[], c :: line, rfl, fun _ => rfl⟩
  | cons first lines => exact ⟨(c :: first) :: lines, line, rfl, fun _ => rfl⟩

theorem linesAt_ne_nil (ht : t ≠ []) : t.linesAt isEnd ≠ [] := by
  fun_cases Text.linesAt isEnd t with
  | case1 => exact absurd rfl ht
  | case2 => exact List.cons_ne_nil _ _
  | case3 => exact List.cons_ne_nil _ _
  | case4 c t =>
    cases Text.linesAt isEnd t <;> exact List.cons_ne_nil _ _

theorem linesAt_unended (hp : p.Unended isEnd) (hne : p ≠ []) : p.linesAt isEnd = [p] := by
  induction p with
  | nil => exact absurd rfl hne
  | cons c p ih =>
    obtain ⟨hnewline, hends⟩ := hp
    rw [List.mem_cons, not_or] at hnewline
    obtain ⟨hc, hends⟩ := List.forall_mem_cons.mp hends
    have hnext : ∀ t', c = .scalar '\r' → p ≠ newline :: t' := by
      rintro t' - rfl
      exact hnewline.2 List.mem_cons_self
    rw [linesAt_cons hnext, if_neg (by rw [hc]; exact Bool.false_ne_true)]
    by_cases hnil : p = []
    · subst hnil
      rfl
    · rw [ih ⟨hnewline.2, hends⟩ hnil]
      rfl

/-- A line that is ended. -/
theorem linesAt_ended (hends : isEnd newline = true) (hp : p.Unended isEnd)
    (hreturn : .scalar '\r' ∉ p) : Text.linesAt isEnd (p ++ [newline]) = [p] := by
  induction p with
  | nil =>
    have hline : Text.linesAt isEnd [newline] =
        if isEnd newline then [] :: Text.linesAt isEnd [] else _ := linesAt_cons fun _ _ => nofun
    rw [List.nil_append, hline, if_pos hends]
    rfl
  | cons c p ih =>
    obtain ⟨hnewline, hends⟩ := hp
    rw [List.mem_cons, not_or] at hnewline hreturn
    obtain ⟨hc, hends⟩ := List.forall_mem_cons.mp hends
    rw [List.cons_append, linesAt_cons fun _ heq => absurd heq.symm hreturn.1,
      if_neg (by rw [hc]; exact Bool.false_ne_true), ih ⟨hnewline.2, hends⟩ hreturn.2]
    rfl

/-- **A last line** that is not ended is one more line, or goes on with the one that was last. -/
theorem linesAt_append (hends : isEnd newline = true) (hp : p.Unended isEnd) (hne : p ≠ [])
    (t : Text) :
    t.Ended isEnd ∧ (t ++ p).linesAt isEnd = t.linesAt isEnd ++ [p] ∨
      ¬ t.Ended isEnd ∧ ∃ lines line, t.linesAt isEnd = lines ++ [line] ∧
        (t ++ p).linesAt isEnd = lines ++ [line ++ p] := by
  have hnewline : ∀ {c : CodePoint} {t : Text},
      (∀ t', c = .scalar '\r' → t = newline :: t' → False) →
        ∀ t', c = .scalar '\r' → t ++ p ≠ newline :: t' := by
    rintro c t hnext t' hc heq
    cases t with
    | nil =>
      rw [List.nil_append] at heq
      rw [heq] at hp
      exact hp.1 List.mem_cons_self
    | cons d t => exact hnext t hc (congrArg (· :: t) (List.cons.inj heq).1)
  fun_induction Text.linesAt isEnd t with
  | case1 => exact .inl ⟨nofun, linesAt_unended hp hne⟩
  | case2 t ih =>
    rw [List.cons_append, List.cons_append, Text.linesAt]
    rcases ih with ⟨hended, hlines⟩ | ⟨hended, lines, line, hlines, happend⟩
    · refine .inl ⟨?_, congrArg (List.cons []) hlines⟩
      cases t with
      | nil =>
        rintro d ⟨⟩
        exact hends
      | cons => exact hended
    · exact .inr ⟨Text.not_ended_cons (Text.not_ended_cons hended), [] :: lines, line,
        congrArg (List.cons []) hlines, congrArg (List.cons []) happend⟩
  | case3 c t hnext hend ih =>
    rw [List.cons_append, linesAt_cons (hnewline hnext), if_pos hend]
    rcases ih with ⟨hended, hlines⟩ | ⟨hended, lines, line, hlines, happend⟩
    · exact .inl ⟨hended.cons hend, congrArg (List.cons []) hlines⟩
    · exact .inr ⟨Text.not_ended_cons hended, [] :: lines, line,
        congrArg (List.cons []) hlines, congrArg (List.cons []) happend⟩
  | case4 c t hnext hend ih =>
    rw [List.cons_append, linesAt_cons (hnewline hnext), if_neg hend]
    rcases ih with ⟨hended, hlines⟩ | ⟨hended, lines, line, hlines, happend⟩
    · rw [hlines]
      cases t with
      | nil => exact .inr ⟨fun hended => hend (hended c rfl), [], [c], rfl, rfl⟩
      | cons d t => exact .inl ⟨hended, consFirst_append (linesAt_ne_nil (List.cons_ne_nil d t)) _⟩
    · obtain ⟨lines', line', heq, hmore⟩ := consFirst_concat (c := c) lines line
      rw [hlines, happend]
      exact .inr ⟨Text.not_ended_cons hended, lines', line', heq, hmore p⟩

/-- What can be printed ends no line. -/
theorem Text.Printable.unended (hp : p.Printable)
    (h : ∀ c ∈ p, 0x20 ≤ c.ord → c.ord ≤ 0x7e → isEnd c = false) : p.Unended isEnd :=
  ⟨hp.oneLine, fun c hc => h c hc (hp c hc).1 (hp c hc).2⟩

theorem Text.Printable.unended_universalNewlines (hp : p.Printable) :
    p.Unended universalNewlines := by
  refine hp.unended fun c _ hlow _ => ?_
  cases c with
  | surrogate n => rfl
  | scalar ch =>
    rw [universalNewlines, decide_eq_false_iff_not, List.mem_pair]
    rintro (rfl | rfl) <;> exact absurd hlow (by decide)

theorem Text.Printable.unended_lineBoundaries (hp : p.Printable) :
    p.Unended lineBoundaries := by
  refine hp.unended fun c _ hlow hhigh => ?_
  cases c with
  | surrogate n => rfl
  | scalar ch =>
    rw [lineBoundaries, decide_eq_false_iff_not]
    simp only [CodePoint.ord] at hlow hhigh
    simp only [List.mem_cons, List.not_mem_nil, or_false]
    omega

end LinesAt

end Python
