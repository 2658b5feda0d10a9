/-
# Outcomes: a value or an exception

Sequential code that can only raise is a chain of `Except` computations, and a loop that can
raise is `List.foldlM`.  The rules here take such a chain apart from its outcome
(`bind_eq_ok_iff`), carry an invariant through a loop that returned (`foldlM_keeps`), and compare
two computations step by step (`Agree`): both raise the same exception, or both return.
-/
import Mathlib.Data.List.Induction
import Mathlib.Logic.Basic

namespace Effect

variable {ε α α' β β' σ : Type}

/-! ## 1. One computation -/

@[simp] theorem pure_eq_ok (a : α) : (pure a : Except ε α) = .ok a := rfl

@[simp] theorem ok_bind (a : α) (f : α → Except ε β) : (.ok a : Except ε α) >>= f = f a := rfl

@[simp] theorem error_bind (e : ε) (f : α → Except ε β) :
    (.error e : Except ε α) >>= f = .error e := rfl

@[simp] theorem bind_ok (x : Except ε α) : (x >>= fun a => .ok a) = x := by cases x <;> rfl

theorem bind_eq_ok_iff {x : Except ε α} {f : α → Except ε β} {b : β} :
    x >>= f = .ok b ↔ ∃ a, x = .ok a ∧ f a = .ok b := by
  cases x <;> simp

theorem isOk_iff {x : Except ε α} : x.isOk = true ↔ ∃ a, x = .ok a := by
  cases x <;> simp [Except.isOk, Except.toBool]

theorem map_eq_ok_iff {x : Except ε α} {f : α → β} {b : β} :
    x.map f = .ok b ↔ ∃ a, x = .ok a ∧ f a = b := by
  cases x <;> simp [Except.map]

theorem map_eq_error_iff {x : Except ε α} {f : α → β} {e : ε} :
    x.map f = .error e ↔ x = .error e := by
  cases x <;> simp [Except.map]

/-- A loop returned: what holds at its start and is kept by every turn holds at its end. -/
theorem foldlM_keeps {f : σ → α → Except ε σ} {I : List α → σ → Prop} {s s' : σ} {xs : List α}
    (hstart : I [] s) (hturn : ∀ ys y t t', I ys t → f t y = .ok t' → I (ys ++ [y]) t')
    (h : xs.foldlM f s = .ok s') : I xs s' := by
  induction xs using List.reverseRecOn generalizing s' with
  | nil =>
    cases h
    exact hstart
  | append_singleton ys y ih =>
    rw [List.foldlM_append, bind_eq_ok_iff] at h
    obtain ⟨t, ht, hy⟩ := h
    simp only [List.foldlM_cons, List.foldlM_nil, bind_pure] at hy
    exact hturn ys y t s' (ih ht) hy

/-- A loop returns, if every turn does that follows returned ones. -/
theorem foldlM_returns {f : σ → α → Except ε σ} {I : List α → σ → Prop} {s : σ} {xs : List α}
    (hstart : I [] s)
    (hturn : ∀ ys y t, ys ++ [y] <+: xs → I ys t → ∃ t', f t y = .ok t' ∧ I (ys ++ [y]) t') :
    ∃ s', xs.foldlM f s = .ok s' ∧ I xs s' := by
  induction xs using List.reverseRecOn with
  | nil => exact ⟨s, rfl, hstart⟩
  | append_singleton ys y ih =>
    obtain ⟨t, ht, hI⟩ := ih fun zs z u hzs => hturn zs z u (hzs.trans (List.prefix_append ys [y]))
    obtain ⟨t', ht', hI'⟩ := hturn ys y t (List.prefix_refl _) hI
    exact ⟨t', by simp [List.foldlM_append, ht, ht'], hI'⟩

/-- A loop that only checks returns, if each of its checks does. -/
theorem forM_eq_ok_iff {f : α → Except ε Unit} {xs : List α} :
    xs.forM f = .ok () ↔ ∀ x ∈ xs, f x = .ok () := by
  induction xs with
  | nil => simp
  | cons x xs ih =>
    rw [List.forM, bind_eq_ok_iff, List.forall_mem_cons, ← ih]
    constructor
    · rintro ⟨⟨⟩, hx, hxs⟩
      exact ⟨hx, hxs⟩
    · rintro ⟨hx, hxs⟩
      exact ⟨(), hx, hxs⟩

/-- The turns of a loop without their exceptions: where one raises, `d` stands for what it has not
returned. -/
def turn (f : σ → α → Except ε σ) (d : σ) (s : σ) (x : α) : σ := (f s x).toOption.getD d

/-- **A loop that returned** is the fold of its turns. -/
theorem foldl_turn {f : σ → α → Except ε σ} (d : σ) {s s' : σ} {xs : List α}
    (h : xs.foldlM f s = .ok s') : xs.foldl (turn f d) s = s' := by
  refine foldlM_keeps (I := fun ys t => ys.foldl (turn f d) s = t) rfl ?_ h
  intro ys y t t' ht hy
  rw [List.foldl_append, ht]
  simp [turn, hy, Except.toOption]

/-- Each turn of a loop that returned has returned. -/
theorem turn_of_foldlM {f : σ → α → Except ε σ} (d : σ) {s s' : σ} {before after : List α} {x : α}
    (h : (before ++ x :: after).foldlM f s = .ok s') :
    f (before.foldl (turn f d) s) x = .ok (turn f d (before.foldl (turn f d) s) x) := by
  rw [List.foldlM_append, bind_eq_ok_iff] at h
  obtain ⟨t, ht, hrest⟩ := h
  rw [List.foldlM_cons, bind_eq_ok_iff] at hrest
  obtain ⟨t', hx, -⟩ := hrest
  rw [foldl_turn d ht, hx]
  simp [turn, hx, Except.toOption]

/-! ## 2. Two computations -/

/-- The same exception, or values related by `R`. -/
inductive Agree (R : α → α' → Prop) : Except ε α → Except ε α' → Prop
  | ok {a : α} {a' : α'} (h : R a a') : Agree R (.ok a) (.ok a')
  | error (e : ε) : Agree R (.error e) (.error e)

namespace Agree

variable {R : α → α' → Prop} {Q : β → β' → Prop} {x : Except ε α} {x' : Except ε α'}

theorem refl {R : α → α → Prop} (x : Except ε α) (h : ∀ a, x = .ok a → R a a) : Agree R x x := by
  cases x with
  | ok a => exact .ok (h a rfl)
  | error e => exact .error e

/-- Agreeing computations go on in agreement. -/
theorem bind {f : α → Except ε β} {f' : α' → Except ε β'} (h : Agree R x x')
    (hf : ∀ a a', x = .ok a → x' = .ok a' → R a a' → Agree Q (f a) (f' a')) :
    Agree Q (x >>= f) (x' >>= f') := by
  cases h with
  | ok h => exact hf _ _ rfl rfl h
  | error e => exact .error e

/-- The same computation on both sides, then two that agree. -/
theorem bind_same {x : Except ε α} {f : α → Except ε β} {f' : α → Except ε β'}
    (hf : ∀ a, x = .ok a → Agree Q (f a) (f' a)) : Agree Q (x >>= f) (x >>= f') := by
  cases x with
  | ok a => exact hf a rfl
  | error e => exact .error e

/-- Two loops agree, if every turn does that follows agreeing ones. -/
theorem foldlM {σ' : Type} {R : σ → σ' → Prop} {f : σ → α → Except ε σ} {f' : σ' → α → Except ε σ'}
    {s : σ} {s' : σ'} {xs : List α} (hstart : R s s')
    (hturn : ∀ ys y t t', ys ++ [y] <+: xs → ys.foldlM f s = .ok t → R t t' →
      Agree R (f t y) (f' t' y)) : Agree R (xs.foldlM f s) (xs.foldlM f' s') := by
  induction xs using List.reverseRecOn with
  | nil => exact .ok hstart
  | append_singleton ys y ih =>
    rw [List.foldlM_append, List.foldlM_append]
    have hbefore := ih fun zs z t t' hzs => hturn zs z t t' (hzs.trans (List.prefix_append ys [y]))
    refine hbefore.bind fun t t' ht _ hR => ?_
    simp only [List.foldlM_cons, List.foldlM_nil, bind_pure]
    exact hturn ys y t t' (List.prefix_refl _) ht hR

/-- What the observer sees of related values is the same. -/
theorem map_eq {γ : Type} {f : α → γ} {f' : α' → γ} (h : Agree R x x')
    (hf : ∀ a a', R a a' → f a = f' a') : x.map f = x'.map f' := by
  cases h with
  | ok h => exact congrArg Except.ok (hf _ _ h)
  | error e => rfl

end Agree

end Effect
