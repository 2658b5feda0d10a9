/-
# Hash chains

The hash of a chain is taken entry by entry: each step hashes the hash so far together with the
next entry.  Where the entries carry both hashes, the chain can be checked (`Chain.Linked`).

* `foldl_alike`: if no step that is taken has the same hash as another one unless the hashes
  before agree, and none gives the root, then two chains with the same hash have the same length
  and entries that are alike, from the last to the first;
* `Chain.linked_append`: a chain is extended by entries that go on from its head, and by no
  others;
* `Chain.Linked.head_eq`: the head of a checked chain is its hash.
-/
import Mathlib.Data.List.Forall2
import Mathlib.Data.List.Induction
import Mathlib.Data.Set.Basic

namespace Effect

variable {α δ : Type}

/-! ## 1. Hashing one entry after another -/

section Folds

variable {f : δ → α → δ} {root : δ} {R : α → α → Prop} {es es' : List α}

/-- The steps taken: the hash so far, and the entry that is hashed with it. -/
def Steps (f : δ → α → δ) (root : δ) (es : List α) : Set (δ × α) :=
  {p | ∃ before after, es = before ++ p.2 :: after ∧ p.1 = before.foldl f root}

theorem steps_append_left : Steps f root es ⊆ Steps f root (es ++ es') := by
  rintro p ⟨before, after, rfl, hp⟩
  exact ⟨before, after ++ es', by simp, hp⟩

theorem last_mem_steps (e : α) : (es.foldl f root, e) ∈ Steps f root (es ++ [e]) :=
  ⟨es, [], rfl, rfl⟩

/-- **Chains with the same hash are alike.** -/
theorem foldl_alike
    (hroot : ∀ p ∈ Steps f root es ∪ Steps f root es', f p.1 p.2 ≠ root)
    (hprevious : ∀ p ∈ Steps f root es, ∀ p' ∈ Steps f root es',
      f p.1 p.2 = f p'.1 p'.2 → p.1 = p'.1)
    (halike : ∀ before e after before' e' after', es = before ++ e :: after →
      es' = before' ++ e' :: after' → before.length = before'.length →
      f (before.foldl f root) e = f (before'.foldl f root) e' → R e e')
    (h : es.foldl f root = es'.foldl f root) : List.Forall₂ R es es' := by
  induction es using List.reverseRecOn generalizing es' with
  | nil =>
    rcases List.eq_nil_or_concat' es' with rfl | ⟨older', e', rfl⟩
    · exact .nil
    · rw [List.foldl_append] at h
      exact absurd h.symm (hroot (_, e') (.inr (last_mem_steps e')))
  | append_singleton older e ih =>
    rcases List.eq_nil_or_concat' es' with rfl | ⟨older', e', rfl⟩
    · rw [List.foldl_append] at h
      exact absurd h (hroot (_, e) (.inl (last_mem_steps e)))
    · simp only [List.foldl_append, List.foldl_cons, List.foldl_nil] at h
      have hbefore := hprevious _ (last_mem_steps e) _ (last_mem_steps e') h
      have holder : List.Forall₂ R older older' := by
        refine ih ?_ ?_ ?_ hbefore
        · exact fun p hp => hroot p (hp.imp (fun h => steps_append_left h)
            fun h => steps_append_left h)
        · exact fun p hp p' hp' => hprevious p (steps_append_left hp) p' (steps_append_left hp')
        · rintro before x after before' x' after' rfl rfl
          exact halike before x (after ++ [e]) before' x' (after' ++ [e']) (by simp) (by simp)
      exact List.rel_append holder
        (.cons (halike older e [] older' e' [] rfl rfl holder.length_eq h) .nil)

end Folds

/-! ## 2. Chains that carry their hashes -/

/-- An entry has the hash of the entry before and its own; `digest` is what its own should be. -/
structure Chain (α δ : Type) where
  previous : α → δ
  current : α → δ
  digest : δ → α → δ

namespace Chain

variable (c : Chain α δ) {h : δ} {es es' : List α}

/-- The entries go on from `h`, each with its right hashes. -/
def Linked : δ → List α → Prop
  | _, [] => True
  | h, e :: es => c.previous e = h ∧ c.current e = c.digest h e ∧ Linked (c.current e) es

/-- The hash that the next entry has to name. -/
def head (h : δ) (es : List α) : δ := es.foldl (fun _ e => c.current e) h

@[simp] theorem head_nil : c.head h [] = h := rfl

@[simp] theorem head_concat (e : α) : c.head h (es ++ [e]) = c.current e := by
  simp [head]

theorem linked_append : c.Linked h (es ++ es') ↔ c.Linked h es ∧ c.Linked (c.head h es) es' := by
  induction es generalizing h with
  | nil => simp [Linked]
  | cons e es ih =>
    simp only [List.cons_append, Linked, ih, and_assoc]
    rfl

theorem linked_concat {e : α} : c.Linked h (es ++ [e]) ↔
    c.Linked h es ∧ c.previous e = c.head h es ∧ c.current e = c.digest (c.head h es) e := by
  simp [linked_append, Linked]

variable {c}

/-- **The head of a chain** is its hash. -/
theorem Linked.head_eq (hlinked : c.Linked h es) : c.head h es = es.foldl c.digest h := by
  induction es using List.reverseRecOn with
  | nil => rfl
  | append_singleton es e ih =>
    obtain ⟨hes, -, hcurrent⟩ := c.linked_concat.mp hlinked
    rw [head_concat, hcurrent, ih hes, List.foldl_append]
    rfl

/-- An entry of a chain, by what stands before it. -/
theorem Linked.entry {e : α} (hlinked : c.Linked h (es ++ e :: es')) :
    c.previous e = c.head h es ∧ c.current e = c.digest (c.head h es) e := by
  obtain ⟨-, hprevious, hcurrent, -⟩ := c.linked_append.mp hlinked
  exact ⟨hprevious, hcurrent⟩

end Chain

end Effect
