/-
# One party of a shared object

The calls of an object come from several parties.  Is what one of them gets independent of the
others?  The question compares two runs: the run of all calls, and the run of the party's own
calls alone.

* `Unwinding.answers_eq`, `Unwinding.leaves`: a relation between the states of the two runs that
  every call keeps makes them give the party the same answers and end in related states, as long
  as each of its calls meets a condition on the two states it finds (`Undisturbed`);
* `Unwinding.undisturbed_iff`: where the answer itself shows that a call did not meet the
  condition, that is exact.

`Interleaved` is for runs of two parties: taking out one party's calls gives back its sequence.
-/
import Kripto.Effect.Object

namespace Effect

variable {σ κ ρ ω : Type}

/-! ## 1. The two runs -/

/-- The state a sequence of calls leaves. -/
def leaves (f : Object σ κ ρ) : σ → List κ → σ
  | s, [] => s
  | s, k :: ks => leaves f (f s k).2 ks

/-- What the calls of the party are answered in a run of all calls. -/
def answersTo (f : Object σ κ ρ) (own : κ → Bool) : σ → List κ → List ρ
  | _, [] => []
  | s, k :: ks =>
    if own k then (f s k).1 :: answersTo f own (f s k).2 ks else answersTo f own (f s k).2 ks

/-- Each call of the party meets `C` in the state the run of all calls has reached and the state
the run of its own calls alone has reached. -/
def Undisturbed (f : Object σ κ ρ) (own : κ → Bool) (C : σ → σ → κ → Prop) :
    σ → σ → List κ → Prop
  | _, _, [] => True
  | s, p, k :: ks =>
    if own k then C s p k ∧ Undisturbed f own C (f s k).2 (f p k).2 ks
    else Undisturbed f own C (f s k).2 p ks

variable {f : Object σ κ ρ} {own : κ → Bool} {C : σ → σ → κ → Prop} {s p : σ} {k : κ}
  {ks : List κ}

instance Undisturbed.decidable [∀ s p k, Decidable (C s p k)] :
    ∀ (s p : σ) (ks : List κ), Decidable (Undisturbed f own C s p ks)
  | _, _, [] => isTrue trivial
  | s, p, k :: ks =>
    have := Undisturbed.decidable (f s k).2 (f p k).2 ks
    have := Undisturbed.decidable (f s k).2 p ks
    inferInstanceAs (Decidable (if own k then C s p k ∧ Undisturbed f own C (f s k).2 (f p k).2 ks
      else Undisturbed f own C (f s k).2 p ks))

@[simp] theorem leaves_nil : leaves f s [] = s := rfl

@[simp] theorem leaves_cons : leaves f s (k :: ks) = leaves f (f s k).2 ks := rfl

@[simp] theorem answersTo_nil : answersTo f own s [] = [] := rfl

theorem answersTo_cons (h : own k = true) :
    answersTo f own s (k :: ks) = (f s k).1 :: answersTo f own (f s k).2 ks := by
  simp [answersTo, h]

theorem answersTo_cons_foreign (h : own k = false) :
    answersTo f own s (k :: ks) = answersTo f own (f s k).2 ks := by
  simp [answersTo, h]

theorem undisturbed_cons (h : own k = true) :
    Undisturbed f own C s p (k :: ks) ↔
      C s p k ∧ Undisturbed f own C (f s k).2 (f p k).2 ks := by
  simp [Undisturbed, h]

theorem undisturbed_cons_foreign (h : own k = false) :
    Undisturbed f own C s p (k :: ks) ↔ Undisturbed f own C (f s k).2 p ks := by
  simp [Undisturbed, h]

/-- A condition on the calls alone, added to one on the states. -/
theorem Undisturbed.and {D : κ → Prop} (h : Undisturbed f own C s p ks) (hD : ∀ k ∈ ks, D k) :
    Undisturbed f own (fun s p k => C s p k ∧ D k) s p ks := by
  induction ks generalizing s p with
  | nil => trivial
  | cons k ks ih =>
    rw [List.forall_mem_cons] at hD
    cases hk : own k with
    | false =>
      rw [undisturbed_cons_foreign hk] at h ⊢
      exact ih h hD.2
    | true =>
      rw [undisturbed_cons hk] at h ⊢
      exact ⟨⟨h.1, hD.1⟩, ih h.2 hD.2⟩

/-! ## 2. Unwinding -/

/-- The calls keep `R` between the run of all calls and the run of the party's own, provided its
calls meet `C`. -/
structure Unwinding (f : Object σ κ ρ) (own : κ → Bool) (R : σ → σ → Prop)
    (C : σ → σ → κ → Prop) : Prop where
  /-- A call of another party is not felt. -/
  foreign : ∀ {s p k}, R s p → own k = false → R (f s k).2 p
  /-- A call of the party is answered alike. -/
  answer : ∀ {s p k}, R s p → own k = true → C s p k → (f s k).1 = (f p k).1
  /-- It leaves related states. -/
  next : ∀ {s p k}, R s p → own k = true → C s p k → R (f s k).2 (f p k).2

namespace Unwinding

variable {R : σ → σ → Prop} (u : Unwinding f own R C)

include u

theorem answers_eq (h : R s p) (hc : Undisturbed f own C s p ks) :
    answersTo f own s ks = answersTo f own p (ks.filter own) := by
  induction ks generalizing s p with
  | nil => rfl
  | cons k ks ih =>
    cases hk : own k with
    | false =>
      rw [undisturbed_cons_foreign hk] at hc
      simpa [answersTo_cons_foreign hk, hk] using ih (u.foreign h hk) hc
    | true =>
      rw [undisturbed_cons hk] at hc
      obtain ⟨hcall, hrest⟩ := hc
      rw [List.filter_cons_of_pos hk, answersTo_cons hk, answersTo_cons hk,
        u.answer h hk hcall, ih (u.next h hk hcall) hrest]

theorem leaves (h : R s p) (hc : Undisturbed f own C s p ks) :
    R (leaves f s ks) (Effect.leaves f p (ks.filter own)) := by
  induction ks generalizing s p with
  | nil => exact h
  | cons k ks ih =>
    cases hk : own k with
    | false =>
      rw [undisturbed_cons_foreign hk] at hc
      simpa [hk] using ih (u.foreign h hk) hc
    | true =>
      rw [undisturbed_cons hk] at hc
      simpa [hk] using ih (u.next h hk hc.1) hc.2

/-- **When the party is undisturbed.**  If the observed part of an answer tells whether the call
met `C`, the party sees a difference unless all its calls do. -/
theorem undisturbed_iff (observe : ρ → ω)
    (hsees : ∀ {s p k}, R s p → own k = true → observe (f s k).1 = observe (f p k).1 → C s p k)
    (h : R s p) (ks : List κ) :
    (answersTo f own s ks).map observe = (answersTo f own p (ks.filter own)).map observe ↔
      Undisturbed f own C s p ks := by
  constructor
  · intro heq
    induction ks generalizing s p with
    | nil => trivial
    | cons k ks ih =>
      cases hk : own k with
      | false =>
        rw [undisturbed_cons_foreign hk]
        refine ih (u.foreign h hk) ?_
        simpa [answersTo_cons_foreign hk, hk] using heq
      | true =>
        rw [List.filter_cons_of_pos hk, answersTo_cons hk, answersTo_cons hk, List.map_cons,
          List.map_cons, List.cons.injEq] at heq
        have hcall : C s p k := hsees h hk heq.1
        exact (undisturbed_cons hk).mpr ⟨hcall, ih (u.next h hk hcall) heq.2⟩
  · intro hc
    rw [u.answers_eq h hc]

end Unwinding

/-! ## 3. Interleavings of two sequences -/

/-- `zs` has the calls of `xs` and those of `ys`, each in their order. -/
inductive Interleaved : List κ → List κ → List κ → Prop
  | done : Interleaved [] [] []
  | left {k : κ} {xs ys zs : List κ} (h : Interleaved xs ys zs) :
      Interleaved (k :: xs) ys (k :: zs)
  | right {k : κ} {xs ys zs : List κ} (h : Interleaved xs ys zs) :
      Interleaved xs (k :: ys) (k :: zs)

namespace Interleaved

variable {xs ys zs : List κ}

theorem swap (h : Interleaved xs ys zs) : Interleaved ys xs zs := by
  induction h with
  | done => exact done
  | left _ ih => exact right ih
  | right _ ih => exact left ih

/-- Taking out the calls of the one party. -/
theorem filter_left (h : Interleaved xs ys zs) (hxs : ∀ k ∈ xs, own k = true)
    (hys : ∀ k ∈ ys, own k = false) : zs.filter own = xs := by
  induction h with
  | done => rfl
  | @left k xs ys zs _ ih =>
    rw [List.forall_mem_cons] at hxs
    rw [List.filter_cons_of_pos hxs.1, ih hxs.2 hys]
  | @right k xs ys zs _ ih =>
    rw [List.forall_mem_cons] at hys
    rw [List.filter_cons_of_neg (by simp [hys.1]), ih hxs hys.2]

end Interleaved

end Effect
