/-
# Lines of descent

Everything has at most one parent.  A climb from one thing to another goes from child to parent
(`Climb`), and what it passes is, the other way round, a line of descent (`descends_iff`).

* `Climb.unique`: there is at most one climb that stops as soon as it can;
* `Climb.nodup`: and it passes nothing twice.
-/
import Mathlib.Data.List.Chain
import Mathlib.Data.List.Nodup
import Mathlib.Data.List.Basic

namespace Effect

variable {α : Type} {parent : α → Option α} {a b c : α} {l l' : List α}

/-! ## 1. Climbing -/

/-- `Climb parent b l a`: from `b`, passing `l` and no more, to `a`. -/
inductive Climb (parent : α → Option α) : α → List α → α → Prop
  | here (a : α) : Climb parent a [] a
  | up {a b c : α} {l : List α} (hparent : parent b = some c) (hrest : Climb parent c l a) :
      Climb parent b (b :: l) a

namespace Climb

theorem eq_of_nil (h : Climb parent b [] a) : b = a := by
  cases h
  rfl

/-- **A climb that stops as soon as it can** is the only one. -/
theorem unique (h : Climb parent b l a) (h' : Climb parent b l' a) (ha : a ∉ l) (ha' : a ∉ l') :
    l = l' := by
  induction h generalizing l' with
  | here a =>
    cases h' with
    | here => rfl
    | up => exact absurd List.mem_cons_self ha'
  | up hparent _ ih =>
    cases h' with
    | here => exact absurd List.mem_cons_self ha
    | up hparent' hrest' =>
      rw [hparent] at hparent'
      obtain rfl := Option.some.inj hparent'
      rw [List.mem_cons, not_or] at ha ha'
      rw [ih hrest' ha.2 ha'.2]

/-- From each thing that it passes, the climb goes on. -/
theorem from_mem (h : Climb parent b l a) (hc : c ∈ l) :
    ∃ before after, l = before ++ c :: after ∧ Climb parent c (c :: after) a := by
  induction h with
  | here => cases hc
  | up hparent hrest ih =>
    rcases List.mem_cons.mp hc with rfl | hc
    · exact ⟨[], _, rfl, .up hparent hrest⟩
    · obtain ⟨before, after, rfl, hafter⟩ := ih hc
      exact ⟨_ :: before, after, rfl, hafter⟩

/-- What the climb passes has a parent. -/
theorem parent_of_mem (h : Climb parent b l a) (hc : c ∈ l) : ∃ d, parent c = some d := by
  obtain ⟨_, _, -, hrest⟩ := h.from_mem hc
  cases hrest with
  | up hparent _ => exact ⟨_, hparent⟩

/-- **Nothing is passed twice**: from there the climb would be shorter. -/
theorem nodup (h : Climb parent b l a) (ha : a ∉ l) : l.Nodup := by
  induction h with
  | here => exact List.nodup_nil
  | up hparent hrest ih =>
    rw [List.mem_cons, not_or] at ha
    refine List.nodup_cons.mpr ⟨fun hmem => ?_, ih ha.2⟩
    obtain ⟨before, after, rfl, hafter⟩ := hrest.from_mem hmem
    have hall := (Climb.up hparent hrest).unique hafter
      (List.not_mem_cons_of_ne_of_not_mem ha.1 ha.2) fun hmem' =>
        (List.mem_cons.mp hmem').elim ha.1 fun hmem' => ha.2 (by simp [hmem'])
    have hlength := congrArg List.length hall
    simp only [List.length_cons, List.length_append] at hlength
    omega

end Climb

/-! ## 2. Lines of descent -/

/-- `rs` leads down from a child of `a` to `b`, a parent before its child. -/
structure Descends (parent : α → Option α) (a b : α) (rs : List α) : Prop where
  chain : (a :: rs).IsChain fun r r' => parent r' = some r
  last : rs.getLast? = some b

theorem cons_reverse_cons (a b : α) (l : List α) :
    a :: (b :: l).reverse = (a :: l.reverse) ++ [b] := by
  rw [List.reverse_cons, List.cons_append]

theorem climb_iff : Climb parent b l a ↔
    (a :: l.reverse).IsChain (fun r r' => parent r' = some r) ∧
      (a :: l.reverse).getLast? = some b := by
  constructor
  · intro h
    induction h with
    | here a => exact ⟨List.isChain_singleton a, rfl⟩
    | up hparent hrest ih =>
      rw [cons_reverse_cons, List.isChain_append, List.getLast?_concat]
      refine ⟨⟨ih.1, List.isChain_singleton _, ?_⟩, rfl⟩
      intro c hc b hb
      rw [ih.2, Option.mem_some_iff] at hc
      rw [List.head?_singleton, Option.mem_some_iff] at hb
      rw [← hc, ← hb, hparent]
  · rintro ⟨hchain, hlast⟩
    induction l generalizing b with
    | nil =>
      obtain rfl := Option.some.inj hlast
      exact .here a
    | cons c l ih =>
      rw [cons_reverse_cons, List.isChain_append] at hchain
      rw [cons_reverse_cons, List.getLast?_concat] at hlast
      obtain rfl := Option.some.inj hlast
      have hd := List.getLast?_eq_some_getLast (List.cons_ne_nil a l.reverse)
      exact .up (hchain.2.2 _ hd c rfl) (ih hchain.1 hd)

/-- **A line of descent** is a climb read backwards. -/
theorem descends_iff {rs : List α} :
    Descends parent a b rs ↔ Climb parent b rs.reverse a ∧ rs ≠ [] := by
  rw [climb_iff, List.reverse_reverse]
  constructor
  · rintro ⟨hchain, hlast⟩
    have hne : rs ≠ [] := by
      rintro rfl
      cases hlast
    obtain ⟨r, rs, rfl⟩ := List.exists_cons_of_ne_nil hne
    exact ⟨⟨hchain, hlast⟩, hne⟩
  · rintro ⟨⟨hchain, hlast⟩, hne⟩
    obtain ⟨r, rs, rfl⟩ := List.exists_cons_of_ne_nil hne
    exact ⟨hchain, hlast⟩

end Effect
