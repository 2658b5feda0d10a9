/-
# JSON part by part

A JSON text is written part by part.  Where each part shows where it ends, the whole shows the
parts: `Determines.append` puts parts together, `determines_list` writes a list of them.

Quoted texts are such parts, up to their code units, and so are numbers with a comma behind.
-/
import Kripto.Python.Units

namespace Python

variable {α β : Type} {w : α → Text} {w' : β → Text} {R : α → α → Prop} {R' : β → β → Prop}

/-- What is written for `a` shows what `a` is, up to `R`, and where it ends. -/
def Determines (w : α → Text) (R : α → α → Prop) : Prop :=
  ∀ a a' rest rest', w a ++ rest = w a' ++ rest' → R a a' ∧ rest = rest'

theorem Determines.rel (h : Determines w R) (a a' : α) (heq : w a = w a') : R a a' :=
  (h a a' [] [] (by rw [heq])).1

theorem Determines.append (h : Determines w R) (h' : Determines w' R') :
    Determines (fun e : α × β => w e.1 ++ w' e.2) fun e e' => R e.1 e'.1 ∧ R' e.2 e'.2 := by
  intro e e' rest rest' heq
  rw [List.append_assoc, List.append_assoc] at heq
  obtain ⟨hfst, hrest⟩ := h _ _ _ _ heq
  obtain ⟨hsnd, hend⟩ := h' _ _ _ _ hrest
  exact ⟨⟨hfst, hsnd⟩, hend⟩

/-- A fixed text in front. -/
theorem Determines.after (h : Determines w R) (front : Text) :
    Determines (fun a => front ++ w a) R := by
  intro a a' rest rest' heq
  rw [List.append_assoc, List.append_assoc] at heq
  exact h a a' rest rest' (List.append_cancel_left heq)

/-- A fixed text behind. -/
theorem Determines.before (h : Determines w R) (back : Text) :
    Determines (fun a => w a ++ back) R := by
  intro a a' rest rest' heq
  rw [List.append_assoc, List.append_assoc] at heq
  obtain ⟨hrel, hrest⟩ := h a a' _ _ heq
  exact ⟨hrel, List.append_cancel_left hrest⟩

theorem determines_quote : Determines (quote true) fun s s' => s.units = s'.units :=
  fun _ _ _ _ => quote_append_inj

/-- What has no comma, with a comma behind. -/
theorem determines_comma (hcomma : ∀ a, .scalar ',' ∉ w a) (hinj : ∀ a a', w a = w a' → R a a') :
    Determines (fun a => w a ++ [.scalar ',']) R := by
  have hcut : ∀ t t' rest rest' : Text, .scalar ',' ∉ t → .scalar ',' ∉ t' →
      t ++ .scalar ',' :: rest = t' ++ .scalar ',' :: rest' → t = t' ∧ rest = rest' := by
    intro t
    induction t with
    | nil =>
      intro t' rest rest' _ ht' heq
      cases t' with
      | nil => exact ⟨rfl, (List.cons.inj heq).2⟩
      | cons c t' =>
        obtain ⟨rfl, -⟩ := List.cons.inj heq
        exact absurd List.mem_cons_self ht'
    | cons c t ih =>
      intro t' rest rest' ht ht' heq
      cases t' with
      | nil =>
        obtain ⟨rfl, -⟩ := List.cons.inj heq
        exact absurd List.mem_cons_self ht
      | cons c' t' =>
        rw [List.cons_append, List.cons_append] at heq
        obtain ⟨rfl, htail⟩ := List.cons.inj heq
        rw [List.mem_cons, not_or] at ht ht'
        obtain ⟨rfl, hrest⟩ := ih t' _ _ ht.2 ht'.2 htail
        exact ⟨rfl, hrest⟩
  intro a a' rest rest' heq
  rw [List.append_assoc, List.append_assoc] at heq
  obtain ⟨hsame, hrest⟩ := hcut _ _ _ _ (hcomma a) (hcomma a') heq
  exact ⟨hinj a a' hsame, hrest⟩

/-! ## Lists -/

/-- What follows the first item of a list. -/
def closing (w : α → Text) : List α → Text
  | [] => Text.of "]"
  | a :: items => .scalar ',' :: (w a ++ closing w items)

theorem commas_cons (part next : Text) (rest : List Text) :
    commas (part :: next :: rest) = part ++ .scalar ',' :: commas (next :: rest) := rfl

theorem commas_closing (a : α) (items : List α) :
    commas ((a :: items).map w) ++ Text.of "]" = w a ++ closing w items := by
  induction items generalizing a with
  | nil => rfl
  | cons b items ih =>
    have hrest := ih b
    rw [List.map_cons] at hrest
    rw [List.map_cons, List.map_cons, commas_cons, List.append_assoc, List.cons_append, hrest]
    rfl

theorem determines_closing (h : Determines w R) : Determines (closing w) (List.Forall₂ R) := by
  intro items
  induction items with
  | nil =>
    intro items' rest rest' heq
    cases items' with
    | nil => exact ⟨.nil, (List.cons.inj heq).2⟩
    | cons b items' => exact absurd (List.cons.inj heq).1 (by decide)
  | cons a items ih =>
    intro items' rest rest' heq
    cases items' with
    | nil => exact absurd (List.cons.inj heq).1 (by decide)
    | cons b items' =>
      rw [closing, closing, List.cons_append, List.cons_append, List.append_assoc,
        List.append_assoc] at heq
      have hafter := (List.cons.inj heq).2
      obtain ⟨hrel, hitems⟩ := h _ _ _ _ hafter
      obtain ⟨hrels, hrest⟩ := ih items' _ _ hitems
      exact ⟨.cons hrel hrels, hrest⟩

/-- **A list** of parts that begin with a bracket. -/
theorem determines_list (h : Determines w R) (hopen : ∀ a, ∃ t, w a = .scalar '[' :: t) :
    Determines (fun items => writeList (items.map w)) (List.Forall₂ R) := by
  intro items items' rest rest' heq
  simp only [writeList, List.append_assoc] at heq
  have hafter := List.append_cancel_left heq
  rw [← List.append_assoc, ← List.append_assoc] at hafter
  cases items with
  | nil =>
    cases items' with
    | nil => exact ⟨.nil, (List.cons.inj hafter).2⟩
    | cons b items' =>
      obtain ⟨t, hb⟩ := hopen b
      rw [commas_closing, hb] at hafter
      exact absurd (List.cons.inj hafter).1 (by decide)
  | cons a items =>
    cases items' with
    | nil =>
      obtain ⟨t, ha⟩ := hopen a
      rw [commas_closing, ha] at hafter
      exact absurd (List.cons.inj hafter).1 (by decide)
    | cons b items' =>
      rw [commas_closing, commas_closing, List.append_assoc, List.append_assoc] at hafter
      obtain ⟨hrel, hitems⟩ := h _ _ _ _ hafter
      obtain ⟨hrels, hrest⟩ := determines_closing h _ _ _ _ hitems
      exact ⟨.cons hrel hrels, hrest⟩

/-! ## Numbers -/

theorem toString_nat_injective {m n : ℕ} (h : Nat.repr m = Nat.repr n) : m = n := by
  have hdigits : Nat.toDigits 10 m = Nat.toDigits 10 n := by
    rw [← Nat.toList_repr, ← Nat.toList_repr, h]
  rw [← Nat.ofDigitChars_toDigits (n := m) (by decide : 1 < 10) le_rfl, hdigits,
    Nat.ofDigitChars_toDigits (by decide) le_rfl]

theorem not_mem_repr {c : Char} (hc : c.isDigit = false) (n : ℕ) : c ∉ (Nat.repr n).toList := by
  intro hmem
  rw [Nat.toList_repr] at hmem
  rw [Nat.isDigit_of_mem_toDigits (by decide) le_rfl hmem] at hc
  cases hc

/-- An integer is known by its text. -/
theorem toString_int_injective {m n : ℤ} (h : toString m = toString n) : m = n := by
  have hsign : ∀ a b : ℕ, Nat.repr a ≠ "-" ++ Nat.repr b := by
    intro a b heq
    refine not_mem_repr (c := '-') (by decide) a ?_
    rw [heq, String.toList_append]
    exact List.mem_append_left _ (by decide)
  cases m with
  | ofNat m =>
    cases n with
    | ofNat n => rw [toString_nat_injective (show Nat.repr m = Nat.repr n from h)]
    | negSucc n => exact absurd h (hsign m (n + 1))
  | negSucc m =>
    cases n with
    | ofNat n => exact absurd h.symm (hsign n (m + 1))
    | negSucc n =>
      have hafter : Nat.repr (m + 1) = Nat.repr (n + 1) := by
        have hlist := congrArg String.toList (show "-" ++ Nat.repr (m + 1) = "-" ++ Nat.repr (n + 1)
          from h)
        rw [String.toList_append, String.toList_append] at hlist
        exact String.toList_inj.mp (List.append_cancel_left hlist)
      rw [Nat.succ.inj (toString_nat_injective hafter)]

/-- An integer is written in digits, with a sign. -/
theorem not_mem_toString {c : Char} (hc : c.isDigit = false) (hsign : c ≠ '-') (n : ℤ) :
    c ∉ (toString n).toList := by
  cases n with
  | ofNat n => exact not_mem_repr hc n
  | negSucc n =>
    intro hmem
    have hlist : (toString (Int.negSucc n)).toList = "-".toList ++ (Nat.repr (n + 1)).toList :=
      String.toList_append
    rw [hlist, List.mem_append] at hmem
    rcases hmem with hminus | hdigit
    · exact hsign (List.mem_singleton.mp hminus)
    · exact not_mem_repr hc (n + 1) hdigit

end Python
