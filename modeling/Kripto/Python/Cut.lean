/-
# A text that goes on, and one that is cut short

`json.loads` reads a text from the left, and what it has read stays read when more stands behind it
(`readValue_append`).  Only a number may go on.

* `read_append_eq_none`: an object with something behind it is no JSON text;
* `read_cut_eq_none`: nor is an object of which the end is missing;
* `ObjectText.torn`: so a beginning of an object that is written can be read nowhere.
-/
import Kripto.Python.Spaced
import Kripto.Python.Lines
import Mathlib.Data.List.TakeWhile

namespace Python.Loads

open Effect

/-! ## 1. Texts in quotes -/

section Units

variable {t rest : Text} {u : ℕ} {us : List ℕ} {n m : ℕ}

theorem readEscape_append (h : readEscape t = some (u, rest)) (x : Text) :
    readEscape (t ++ x) = some (u, rest ++ x) := by
  cases t with
  | nil => cases h
  | cons e t =>
    rw [List.cons_append]
    cases hlookup : UNESCAPE_DCT.lookup e with
    | some v =>
      simp only [readEscape, hlookup] at h ⊢
      obtain ⟨rfl, rfl⟩ := Prod.mk.inj (Option.some.inj h)
      rfl
    | none =>
      rcases t with _ | ⟨a, _ | ⟨b, _ | ⟨c, _ | ⟨d, t⟩⟩⟩⟩
      · simp [readEscape, hlookup] at h
      · simp [readEscape, hlookup] at h
      · simp [readEscape, hlookup] at h
      · simp [readEscape, hlookup] at h
      · simp only [readEscape, hlookup, List.cons_append, Option.bind_eq_bind,
          Option.bind_eq_some_iff, Option.pure_def, Option.some.injEq, Prod.mk.injEq] at h ⊢
        obtain ⟨a', ha, b', hb, c', hc, d', hd, hu, rfl⟩ := h
        exact ⟨a', ha, b', hb, c', hc, d', hd, hu, rfl⟩

theorem readUnit_append (h : readUnit t = some (u, rest)) (x : Text) :
    readUnit (t ++ x) = some (u, rest ++ x) := by
  match t, h with
  | .scalar c :: t, h =>
    rw [List.cons_append, readUnit]
    rw [readUnit] at h
    split_ifs at h ⊢ with hquote hbackslash
    · exact readEscape_append h x
    · obtain ⟨rfl, rfl⟩ := Prod.mk.inj (Option.some.inj h)
      rfl

theorem scanUnit_backslash {e : Char} (he : e ≠ '/') (rest : Text) :
    scanUnit (.scalar '\\' :: .scalar e :: rest) =
      if e ∈ ESCAPES then readUnit (.scalar '\\' :: .scalar e :: rest) else none := by
  rw [scanUnit]
  exact he

theorem scanUnit_append (h : scanUnit t = some (u, rest)) (x : Text) :
    scanUnit (t ++ x) = some (u, rest ++ x) := by
  match t, h with
  | .scalar c :: t, h =>
    by_cases hc : c = '\\'
    · subst hc
      match t, h with
      | [], h => exact nomatch h
      | .surrogate e :: t, h => exact (readUnit_append (t := .scalar '\\' :: .surrogate e :: t) h x)
      | .scalar e :: t, h =>
        by_cases he : e = '/'
        · subst he
          obtain ⟨rfl, rfl⟩ := Prod.mk.inj (Option.some.inj h)
          rfl
        · rw [scanUnit_backslash he] at h
          rw [List.cons_append, List.cons_append, scanUnit_backslash he]
          split_ifs at h ⊢
          exact readUnit_append h x
    · rw [scanUnit_scalar hc] at h
      rw [List.cons_append, scanUnit_scalar hc]
      split_ifs at h ⊢
      exact readUnit_append h x

theorem scanUnits_append (h : scanUnits n t = some (us, rest)) (hn : n ≤ m) (x : Text) :
    scanUnits m (t ++ x) = some (us, rest ++ x) := by
  induction n generalizing m t us with
  | zero => cases h
  | succ n ih =>
    obtain ⟨m, rfl⟩ : ∃ k, m = k + 1 := ⟨m - 1, by omega⟩
    unfold scanUnits at h
    split at h
    · obtain ⟨rfl, rfl⟩ := Prod.mk.inj (Option.some.inj h)
      rfl
    · next hquote =>
      simp only [Option.bind_eq_bind, Option.bind_eq_some_iff, Option.pure_def, Option.some.injEq,
        Prod.mk.injEq, Prod.exists] at h
      obtain ⟨u, t', hu, us', rest', hus, rfl, rfl⟩ := h
      have hrest := ih hus (Nat.le_of_succ_le_succ hn)
      rw [scanUnits, scanUnit_append hu x]
      · change (scanUnits m (t' ++ x)).bind _ = _
        rw [hrest]
        rfl
      · rintro rest heq
        cases t with
        | nil => cases hu
        | cons c t => exact hquote t (congrArg (· :: t) (List.cons.inj heq).1)

theorem readString_append {s : Text} (h : readString t = some (s, rest)) (x : Text) :
    readString (t ++ x) = some (s, rest ++ x) := by
  rw [readString, Option.map_eq_some_iff] at h
  obtain ⟨⟨us, rest'⟩, hscan, heq⟩ := h
  obtain ⟨rfl, rfl⟩ := Prod.mk.inj heq
  have hfuel : t.length + 1 ≤ (t ++ x).length + 1 := by
    rw [List.length_append]
    omega
  rw [readString, scanUnits_append hscan hfuel x]
  rfl

end Units

/-! ## 2. Values -/

section Reader

variable [PyFloatRepr] {t rest : Text} {j : JsonTree} {n m : ℕ}

omit [PyFloatRepr] in
theorem skip_append (h : skip t ≠ []) (x : Text) : skip (t ++ x) = skip t ++ x := by
  unfold skip at h ⊢
  rw [List.dropWhile_append, if_neg (by simpa using h)]

/-- A number with something behind it ends there. -/
theorem readNumber_append (h : readNumber t = some (j, rest)) (hrest : rest ≠ []) (x : Text) :
    readNumber (t ++ x) = some (j, rest ++ x) := by
  rw [readNumber, Option.map_eq_some_iff] at h
  obtain ⟨j', hj, heq⟩ := h
  obtain ⟨rfl, rfl⟩ := Prod.mk.inj heq
  have hdrop : (t ++ x).dropWhile isNumberChar = t.dropWhile isNumberChar ++ x := by
    rw [List.dropWhile_append, if_neg (by simpa using hrest)]
  have htake : (t ++ x).takeWhile isNumberChar = t.takeWhile isNumberChar := by
    rw [List.takeWhile_append, if_neg fun hall => hrest ?_]
    have hparts : t.takeWhile isNumberChar ++ t.dropWhile isNumberChar = t :=
      List.takeWhile_append_dropWhile
    have hlength := congrArg List.length hparts
    rw [List.length_append, hall] at hlength
    exact List.length_eq_zero_iff.mp (by omega)
  rw [readNumber, htake, hdrop, hj]
  rfl

theorem readScalar_append (h : readScalar t = some (j, rest)) (hrest : rest ≠ []) (x : Text) :
    readScalar (t ++ x) = some (j, rest ++ x) := by
  rw [readScalar] at h
  cases hnumber : readNumber t with
  | some found =>
    rw [hnumber] at h
    obtain rfl := Option.some.inj h
    rw [readScalar, readNumber_append hnumber hrest x]
  | none =>
    rw [hnumber] at h
    obtain ⟨e, hfind, heq⟩ := Option.map_eq_some_iff.mp h
    obtain ⟨rfl, rfl⟩ := Prod.mk.inj heq
    have hbegins : (Text.of e.1).isPrefixOf t = true := by simpa using List.find?_some hfind
    obtain ⟨t', rfl⟩ := List.isPrefixOf_iff_prefix.mp hbegins
    rw [← Text.length_of, List.drop_left, List.append_assoc]
    exact readScalar_name (List.mem_of_find?_eq_some hfind) (t' ++ x)

/-- It shows by its beginning where it ends. -/
def Opens (t : Text) : Prop := ∃ c rest, skip t = .scalar c :: rest ∧ c ∈ OPENING

theorem readValue_blank (h : skip t = []) : readValue n t = none := by
  cases n with
  | zero => rfl
  | succ n =>
    rw [readValue, h]
    rfl

theorem readItems_blank (h : skip t = []) : readItems n t = none := by
  cases n with
  | zero => rfl
  | succ n =>
    rw [readItems, readValue_blank h]
    rfl

theorem readFields_blank (h : skip t = []) : readFields n t = none := by
  cases n with
  | zero => rfl
  | succ n =>
    rw [readFields, h]

omit [PyFloatRepr] in
theorem behind_append {c : Char} (h : skip t ≠ []) (x : Text) :
    behind c (t ++ x) = (behind c t).map (· ++ x) := by
  obtain ⟨d, t', hskip⟩ := List.exists_cons_of_ne_nil h
  rw [behind, behind, skip_append h, hskip]
  split_ifs with hc hc' hc'
  · rfl
  · exact absurd hc hc'
  · exact absurd hc' hc
  · rfl

omit [PyFloatRepr] in
/-- A bracket that closes at once, or parts. -/
theorem elim_behind_append {α : Type} {c : Char} {parts parts' : Option (α × Text)} {empty a : α}
    (h : (behind c t).elim parts (fun rest => some (empty, rest)) = some (a, rest))
    (hblank : skip t = [] → parts = none) (x : Text)
    (hparts : parts = some (a, rest) → parts' = some (a, rest ++ x)) :
    (behind c (t ++ x)).elim parts' (fun rest => some (empty, rest)) = some (a, rest ++ x) := by
  have hskip : skip t ≠ [] := by
    intro hnil
    rw [behind, hnil, hblank hnil] at h
    cases h
  rw [behind_append hskip]
  cases hbehind : behind c t with
  | none =>
    rw [hbehind] at h
    exact hparts h
  | some rest' =>
    rw [hbehind] at h
    obtain ⟨rfl, rfl⟩ := Prod.mk.inj (Option.some.inj h)
    rfl

omit [PyFloatRepr] in
theorem map_append {α β : Type} {f : α → β} {found found' : Option (α × Text)} {b : β} {x : Text}
    (h : found.map (fun e => (f e.1, e.2)) = some (b, rest))
    (happend : ∀ a, found = some (a, rest) → found' = some (a, rest ++ x)) :
    found'.map (fun e => (f e.1, e.2)) = some (b, rest ++ x) := by
  obtain ⟨⟨a, rest'⟩, hfound, heq⟩ := Option.map_eq_some_iff.mp h
  obtain ⟨rfl, rfl⟩ := Prod.mk.inj heq
  rw [happend a hfound]
  rfl

mutual

/-- **What is read stays read** when more stands behind it, unless it may go on. -/
theorem readValue_append : ∀ {n m : ℕ} {t rest : Text} {j : JsonTree},
    readValue n t = some (j, rest) → rest ≠ [] ∨ Opens t → n ≤ m → ∀ x,
      readValue m (t ++ x) = some (j, rest ++ x)
  | 0, _, _, _, _, h, _, _, _ => nomatch h
  | n + 1, m, t, rest, j, h, hend, hn, x => by
    obtain ⟨m, rfl⟩ : ∃ k, m = k + 1 := ⟨m - 1, by omega⟩
    have hm : n ≤ m := Nat.le_of_succ_le_succ hn
    have hskip : skip t ≠ [] := fun hnil => nomatch (readValue_blank hnil).symm.trans h
    unfold readValue at h
    rw [readValue, skip_append hskip]
    split at h
    · next t' heq =>
      rw [heq]
      exact map_append h fun s hs => readString_append hs x
    · next t' heq =>
      rw [heq]
      refine elim_behind_append h ?_ x fun hitems => ?_
      · exact fun hblank => by rw [readItems_blank hblank]; rfl
      · exact map_append hitems fun items hitems => readItems_append hitems hm x
    · next t' heq =>
      rw [heq]
      refine elim_behind_append h ?_ x fun hfields => ?_
      · exact fun hblank => by rw [readFields_blank hblank]; rfl
      · exact map_append hfields fun fields hfields => readFields_append hfields hm x
    · next hquote hbracket hbrace =>
      have hrest : rest ≠ [] := by
        refine hend.resolve_right ?_
        rintro ⟨c, t', heq, hc⟩
        simp only [OPENING, List.mem_cons, List.not_mem_nil, or_false] at hc
        rcases hc with rfl | rfl | rfl
        · exact hquote t' heq
        · exact hbracket t' heq
        · exact hbrace t' heq
      have hread := readScalar_append h hrest x
      have hfirst : ∀ {c : CodePoint} {t' : Text}, skip t ++ x = c :: t' →
          ∃ t'', skip t = c :: t'' := by
        intro c t' heq
        obtain ⟨c', t'', hcons⟩ := List.exists_cons_of_ne_nil hskip
        rw [hcons] at heq ⊢
        exact ⟨t'', congrArg (· :: t'') (List.cons.inj heq).1⟩
      split
      · next heq => exact (hquote _ (hfirst heq).choose_spec).elim
      · next heq => exact (hbracket _ (hfirst heq).choose_spec).elim
      · next heq => exact (hbrace _ (hfirst heq).choose_spec).elim
      · exact hread

theorem readItems_append : ∀ {n m : ℕ} {t rest : Text} {items : List JsonTree},
    readItems n t = some (items, rest) → n ≤ m → ∀ x,
      readItems m (t ++ x) = some (items, rest ++ x)
  | 0, _, _, _, _, h, _, _ => nomatch h
  | n + 1, m, t, rest, items, h, hn, x => by
    obtain ⟨m, rfl⟩ : ∃ k, m = k + 1 := ⟨m - 1, by omega⟩
    have hm : n ≤ m := Nat.le_of_succ_le_succ hn
    rw [readItems, Option.bind_eq_bind, Option.bind_eq_some_iff] at h
    obtain ⟨⟨j, t'⟩, hj, h⟩ := h
    dsimp only at h
    have hread : skip t' ≠ [] → readValue m (t ++ x) = some (j, t' ++ x) := by
      refine fun hskip => readValue_append hj (.inl ?_) hm x
      rintro rfl
      exact hskip rfl
    split at h
    · next t'' heq =>
      have hskip : skip t' ≠ [] := heq ▸ List.cons_ne_nil _ _
      simp only [readItems, hread hskip, Option.bind_eq_bind, Option.bind_some, skip_append hskip,
        heq, List.cons_append]
      exact map_append h fun items hitems => readItems_append hitems hm x
    · next t'' heq =>
      have hskip : skip t' ≠ [] := heq ▸ List.cons_ne_nil _ _
      obtain ⟨rfl, rfl⟩ := Prod.mk.inj (Option.some.inj h)
      simp only [readItems, hread hskip, Option.bind_eq_bind, Option.bind_some, skip_append hskip,
        heq, List.cons_append]
    · exact nomatch h

theorem readFields_append : ∀ {n m : ℕ} {t rest : Text} {fields : List (Text × JsonTree)},
    readFields n t = some (fields, rest) → n ≤ m → ∀ x,
      readFields m (t ++ x) = some (fields, rest ++ x)
  | 0, _, _, _, _, h, _, _ => nomatch h
  | n + 1, m, t, rest, fields, h, hn, x => by
    obtain ⟨m, rfl⟩ : ∃ k, m = k + 1 := ⟨m - 1, by omega⟩
    have hm : n ≤ m := Nat.le_of_succ_le_succ hn
    have hskip : skip t ≠ [] := fun hnil => nomatch (readFields_blank hnil).symm.trans h
    rw [readFields] at h
    split at h
    · next t₁ heq₁ =>
      rw [Option.bind_eq_bind, Option.bind_eq_some_iff] at h
      obtain ⟨⟨k, t₂⟩, hk, h⟩ := h
      dsimp only at h
      split at h
      · next t₃ heq₃ =>
        rw [Option.bind_eq_bind, Option.bind_eq_some_iff] at h
        obtain ⟨⟨j, t₄⟩, hj, h⟩ := h
        dsimp only at h
        have hskip₂ : skip t₂ ≠ [] := heq₃ ▸ List.cons_ne_nil _ _
        have hread : skip t₄ ≠ [] → readValue m (t₃ ++ x) = some (j, t₄ ++ x) := by
          refine fun hskip => readValue_append hj (.inl ?_) hm x
          rintro rfl
          exact hskip rfl
        split at h
        · next t₅ heq₅ =>
          have hskip₄ : skip t₄ ≠ [] := heq₅ ▸ List.cons_ne_nil _ _
          simp only [readFields, skip_append hskip, heq₁, List.cons_append, readString_append hk x,
            Option.bind_eq_bind, Option.bind_some, skip_append hskip₂, heq₃, hread hskip₄,
            skip_append hskip₄, heq₅]
          exact map_append h fun fields hfields => readFields_append hfields hm x
        · next t₅ heq₅ =>
          have hskip₄ : skip t₄ ≠ [] := heq₅ ▸ List.cons_ne_nil _ _
          obtain ⟨rfl, rfl⟩ := Prod.mk.inj (Option.some.inj h)
          simp only [readFields, skip_append hskip, heq₁, List.cons_append, readString_append hk x,
            Option.bind_eq_bind, Option.bind_some, skip_append hskip₂, heq₃, hread hskip₄,
            skip_append hskip₄, heq₅]
        · exact nomatch h
      · exact nomatch h
    · exact nomatch h

end

/-! ## 3. Texts -/

variable {x : Text}

theorem read_eq_some_iff :
    read t = some j ↔ ∃ rest, readValue (t.length + 1) t = some (j, rest) ∧ skip rest = [] := by
  rw [read, Option.bind_eq_bind, Option.bind_eq_some_iff]
  constructor
  · rintro ⟨⟨j', rest⟩, hread, h⟩
    dsimp only at h
    split_ifs at h with hrest
    obtain rfl := Option.some.inj h
    exact ⟨rest, hread, hrest⟩
  · rintro ⟨rest, hread, hrest⟩
    exact ⟨(j, rest), hread, if_pos hrest⟩

omit [PyFloatRepr] in
theorem skip_append_of_blank (h : skip t = []) (x : Text) : skip (t ++ x) = skip x := by
  unfold skip at h ⊢
  rw [List.dropWhile_append, if_pos (by rw [h]; rfl)]

/-- **An object with something behind it** is no JSON text. -/
theorem read_append_eq_none (h : read t = some j) (hopens : Opens t) (hx : skip x ≠ []) :
    read (t ++ x) = none := by
  obtain ⟨rest, hread, hrest⟩ := read_eq_some_iff.mp h
  rw [Option.eq_none_iff_forall_not_mem]
  intro j' hj'
  obtain ⟨rest', hread', hrest'⟩ := read_eq_some_iff.mp hj'
  have hlength : t.length + 1 ≤ (t ++ x).length + 1 := by
    rw [List.length_append]
    omega
  rw [readValue_append hread (.inr hopens) hlength x] at hread'
  obtain ⟨-, rfl⟩ := Prod.mk.inj (Option.some.inj hread')
  rw [skip_append_of_blank hrest] at hrest'
  exact hx hrest'

/-- A text in braces. -/
def Braced (w : Text) : Prop := ∃ t, w = .scalar '\x7b' :: (t ++ [.scalar '\x7d'])

omit [PyFloatRepr] in
theorem Braced.opens {w p : Text} (hbraced : Braced w) (hpre : p <+: w) (hne : p ≠ [])
    (ht : skip t = []) : Opens (t ++ p) := by
  obtain ⟨w', rfl⟩ := hbraced
  obtain ⟨c, p, rfl⟩ := List.exists_cons_of_ne_nil hne
  obtain ⟨y, hy⟩ := hpre
  obtain ⟨rfl, -⟩ := List.cons.inj hy
  exact ⟨'\x7b', p, skip_append_of_blank ht _, by decide⟩

theorem readValue_congr {t' : Text} (h : skip t = skip t') : readValue n t = readValue n t' := by
  cases n with
  | zero => rfl
  | succ n => rw [readValue, readValue, h]

omit [PyFloatRepr] in
/-- What is missing of it is not blank. -/
theorem Braced.skip_ne_nil {p y : Text} (hbraced : Braced (p ++ y)) (hy : y ≠ []) :
    skip y ≠ [] := by
  obtain ⟨w, hw⟩ := hbraced
  have hlast : y.getLast? = some (.scalar '\x7d') := by
    rw [← List.getLast?_append_of_ne_nil p hy, hw, ← List.cons_append, List.getLast?_concat]
  intro hskip
  have hspace := List.dropWhile_eq_nil_iff.mp hskip _ (List.mem_of_getLast? hlast)
  exact absurd hspace (by decide)

/-- **An object of which the end is missing** is no JSON text. -/
theorem read_cut_eq_none {p w : Text} (hw : read w = some j) (hbraced : Braced w)
    (hpre : p <+: w) (hne : p ≠ []) (hcut : p ≠ w) (ht : skip t = []) : read (t ++ p) = none := by
  have hopens := hbraced.opens hpre hne ht
  have hopens' : Opens w := by
    refine hbraced.opens (t := []) List.prefix_rfl ?_ rfl
    rintro rfl
    exact hne (List.prefix_nil.mp hpre)
  obtain ⟨y, rfl⟩ := hpre
  have hy : y ≠ [] := by
    rintro rfl
    exact hcut (List.append_nil p).symm
  rw [Option.eq_none_iff_forall_not_mem]
  intro j' hj'
  obtain ⟨rest, hread, hrest⟩ := read_eq_some_iff.mp hj'
  obtain ⟨rest', hread', hrest'⟩ := read_eq_some_iff.mp hw
  -- both go on to the end of the whole text
  have hmore := readValue_append hread (.inr hopens) (Nat.le_add_right _ y.length) y
  have hwhole := readValue_append hread' (.inr hopens') (Nat.le_add_left _ t.length) []
  have hskip : skip (t ++ p ++ y) = skip (p ++ y) := by
    rw [List.append_assoc, skip_append_of_blank ht]
  have hfuel : (t ++ p).length + 1 + y.length = t.length + ((p ++ y).length + 1) := by
    simp only [List.length_append]
    omega
  rw [hfuel, readValue_congr hskip] at hmore
  rw [List.append_nil, List.append_nil, hmore] at hwhole
  obtain ⟨-, rfl⟩ := Prod.mk.inj (Option.some.inj hwhole)
  rw [skip_append_of_blank hrest] at hrest'
  exact hbraced.skip_ne_nil hy hrest'

/-! ## 4. Lines -/

omit [PyFloatRepr] in
/-- `not text.strip()`. -/
def blank (t : Text) : Bool := t.all fun c => c.char?.any Text.isSpace

omit [PyFloatRepr] in
/-- A beginning of a text in braces is not blank. -/
theorem Braced.not_blank {p w : Text} (hbraced : Braced w) (hpre : p <+: w) (hne : p ≠ [])
    (t : Text) : blank (t ++ p) = false := by
  obtain ⟨w', rfl⟩ := hbraced
  obtain ⟨c, p, rfl⟩ := List.exists_cons_of_ne_nil hne
  obtain ⟨y, hy⟩ := hpre
  obtain ⟨rfl, -⟩ := List.cons.inj hy
  rw [Bool.eq_false_iff]
  intro hblank
  have hbrace := List.all_eq_true.mp hblank _ (List.mem_append_right t List.mem_cons_self)
  exact absurd hbrace (by decide)

omit [PyFloatRepr] in
theorem isNumberChar_blank {c : Char} (hc : Text.isSpace c = true) :
    isNumberChar (.scalar c) = false := by
  rw [Bool.eq_false_iff]
  intro hnumber
  have hprintable := printable_numberChar hnumber
  have hspace : c.toNat = 0x20 := by
    simp only [Text.isSpace, List.mem_cons, List.not_mem_nil, or_false, decide_eq_true_eq] at hc
    omega
  obtain rfl : c = ' ' := Char.toNat_inj.mp hspace
  exact absurd hnumber (by decide)

/-- What is blank begins no number and no name. -/
theorem readScalar_blank {c : CodePoint} (hc : c.char?.any Text.isSpace = true) (t : Text) :
    readScalar (c :: t) = none := by
  have hnumber : isNumberChar c = false := by
    cases c with
    | surrogate n => rfl
    | scalar ch => exact isNumberChar_blank hc
  have hfind : NAMES.find? (fun e => (Text.of e.1).isPrefixOf (c :: t)) = none := by
    have hnames : ∀ e ∈ NAMES, ∃ d rest, Text.of e.1 = d :: rest ∧
        d.char?.any Text.isSpace = false := by
      simp only [NAMES, List.forall_mem_cons, List.not_mem_nil, false_imp_iff, implies_true,
        and_true]
      exact ⟨⟨_, _, rfl, by decide⟩, ⟨_, _, rfl, by decide⟩, ⟨_, _, rfl, by decide⟩,
        ⟨_, _, rfl, by decide⟩, ⟨_, _, rfl, by decide⟩, ⟨_, _, rfl, by decide⟩⟩
    rw [List.find?_eq_none]
    intro e he hbegins
    obtain ⟨d, rest, hcons, hd⟩ := hnames e he
    rw [hcons] at hbegins
    obtain ⟨t', ht'⟩ := List.isPrefixOf_iff_prefix.mp hbegins
    rw [(List.cons.inj ht').1, hc] at hd
    cases hd
  rw [readScalar, readNumber, List.takeWhile_cons_of_neg (by rw [hnumber]; decide), hfind]
  rfl

theorem read_blank_eq_none {c : CodePoint} {t' : Text} (hc : c.char?.any Text.isSpace = true)
    (hskip : skip t = c :: t') : read t = none := by
  have hvalue : readValue (t.length + 1) t = none := by
    rw [readValue, hskip]
    split
    · next heq =>
      rw [(List.cons.inj heq).1] at hc
      exact absurd hc (by decide)
    · next heq =>
      rw [(List.cons.inj heq).1] at hc
      exact absurd hc (by decide)
    · next heq =>
      rw [(List.cons.inj heq).1] at hc
      exact absurd hc (by decide)
    · exact readScalar_blank hc t'
  rw [read, hvalue]
  rfl

theorem numberOf_ne_dict {cs : List Char} {fields : List (Text × JsonTree)} :
    numberOf cs ≠ some (.dict fields) := by
  unfold numberOf
  split_ifs <;> exact nofun

theorem readScalar_ne_dict {fields : List (Text × JsonTree)} :
    readScalar t ≠ some (.dict fields, rest) := by
  intro h
  rw [readScalar] at h
  cases hnumber : readNumber t with
  | some found =>
    rw [hnumber] at h
    obtain rfl := Option.some.inj h
    obtain ⟨j, hj, heq⟩ := Option.map_eq_some_iff.mp hnumber
    obtain ⟨rfl, -⟩ := Prod.mk.inj heq
    exact numberOf_ne_dict hj
  | none =>
    have hnames : ∀ e ∈ NAMES, e.2 ≠ .dict fields := by
      simp only [NAMES, List.forall_mem_cons, List.not_mem_nil, false_imp_iff, implies_true,
        and_true]
      refine ⟨?_, ?_, ?_, ?_, ?_, ?_⟩ <;> intro heq <;> cases heq
    rw [hnumber] at h
    obtain ⟨e, he, heq⟩ := Option.map_eq_some_iff.mp h
    exact hnames e (List.mem_of_find?_eq_some he) (Prod.mk.inj heq).1

/-- A dictionary begins with a brace. -/
theorem opens_of_dict {fields : List (Text × JsonTree)} (h : read t = some (.dict fields)) :
    Opens t := by
  obtain ⟨rest, hread, -⟩ := read_eq_some_iff.mp h
  unfold readValue at hread
  split at hread
  · next heq => exact ⟨_, _, heq, by decide⟩
  · next heq => exact ⟨_, _, heq, by decide⟩
  · next heq => exact ⟨_, _, heq, by decide⟩
  · exact absurd hread readScalar_ne_dict

/-! ## 5. Objects as they are written -/

/-- The text of an object, on one line. -/
structure ObjectText (w : Text) : Prop where
  read : ∃ j, read w = some j
  braced : Braced w
  printable : w.Printable

/-- **A line that has been torn** cannot be read, whether it stands by itself or behind what was the
last line. -/
theorem ObjectText.torn {line p w : Text} (h : ObjectText w) (hpre : p <+: w) (hne : p ≠ [])
    (hcut : p ≠ w) (hline : blank line = true ∨ ∃ fields, Loads.read line = some (.dict fields)) :
    Loads.read (line ++ p) = none := by
  obtain ⟨j, hw⟩ := h.read
  rcases hline with hblank | ⟨fields, hfields⟩
  · by_cases hskip : skip line = []
    · exact read_cut_eq_none hw h.braced hpre hne hcut hskip
    · obtain ⟨c, line', hcons⟩ := List.exists_cons_of_ne_nil hskip
      have hc : c.char?.any Text.isSpace = true := by
        refine List.all_eq_true.mp hblank c ((List.dropWhile_sublist isJsonSpace).subset ?_)
        change c ∈ skip line
        rw [hcons]
        exact List.mem_cons_self
      exact read_blank_eq_none hc (by rw [skip_append hskip, hcons]; rfl)
  · obtain ⟨c, p', hp, -⟩ := h.braced.opens (t := []) hpre hne rfl
    exact read_append_eq_none hfields (opens_of_dict hfields) (hp ▸ List.cons_ne_nil _ _)

variable {d : Dict} {text : Text}

omit [PyFloatRepr] in
theorem exists_tree_of_dict {write : JsonTree → Text}
    (h : ((PyValue.dict d).tree false).map write = .ok text) :
    ∃ fields, (PyValue.dict d).tree false = .ok (.dict fields) ∧ write (.dict fields) = text := by
  obtain ⟨j, hj, rfl⟩ := map_eq_ok_iff.mp h
  have hdict := hj
  rw [PyValue.tree] at hdict
  obtain ⟨trees, -, hdict⟩ := bind_eq_ok_iff.mp hdict
  obtain ⟨fields, -, hdict⟩ := bind_eq_ok_iff.mp hdict
  obtain rfl := Except.ok.inj hdict
  exact ⟨fields, hj, rfl⟩

/-- **A dictionary** is written as an object. -/
theorem objectText_dumpsSpaced (h : (PyValue.dict d).dumpsSpaced = .ok text)
    (hfloats : (PyValue.dict d).FloatsRead) : ObjectText text := by
  obtain ⟨fields, hj, rfl⟩ := exists_tree_of_dict h
  exact ⟨⟨_, read_writeSpaced (hfloats _ hj)⟩, ⟨_, rfl⟩, printable_writeSpaced (hfloats _ hj)⟩

theorem objectText_dumps (h : (PyValue.dict d).dumps {} = .ok text)
    (hfloats : (PyValue.dict d).FloatsRead) : ObjectText text := by
  rw [dumps_eq] at h
  obtain ⟨fields, hj, rfl⟩ := exists_tree_of_dict h
  exact ⟨⟨_, read_write (hfloats _ hj)⟩, ⟨_, rfl⟩, printable_write (hfloats _ hj)⟩

end Reader

end Python.Loads
