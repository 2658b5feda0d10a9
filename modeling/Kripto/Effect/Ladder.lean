/-
# Ladders

Something that is on a rung, and goes up by one rung at most with each call.  Wherever it is after
some calls, it has come there rung by rung, and for each rung there is a last call that went up to
it: the thing has not been below that rung since (`Ascent`, `ascent_of_le`).

If a call goes up under a condition only, the calls of an ascent have met it, and without such calls
nothing goes up (`level_le_of_none`).
-/
import Mathlib.Data.List.Induction
import Mathlib.Order.Lattice

namespace Effect

variable {S C : Type} {step : S → C → S} {level : S → ℕ} {May : S → C → Prop} {s : S} {k : ℕ}
  {calls : List C}

/-- Each call goes up by one at most, and only if it may. -/
structure IsLadder (step : S → C → S) (level : S → ℕ) (May : S → C → Prop) : Prop where
  level_le : ∀ s c, level (step s c) ≤ level s + 1
  may : ∀ s c, level s < level (step s c) → May s c

/-- Not below `k` at the start, nor after any of the calls. -/
def StaysAbove (step : S → C → S) (level : S → ℕ) (k : ℕ) (s : S) (calls : List C) : Prop :=
  ∀ first, first <+: calls → k ≤ level (first.foldl step s)

/-- **An ascent** to the rung `k`: for each rung above the start a call that may go up to it
and does, in their order, and after it no call has gone below that rung again. -/
inductive Ascent (step : S → C → S) (level : S → ℕ) (May : S → C → Prop) (s : S) :
    ℕ → List C → Prop
  | start (calls : List C) : Ascent step level May s (level s) calls
  | rise {k : ℕ} {before after : List C} {c : C} (h : Ascent step level May s k before)
      (hfrom : level (before.foldl step s) = k) (hto : level (step (before.foldl step s) c) = k + 1)
      (hmay : May (before.foldl step s) c)
      (hstays : StaysAbove step level (k + 1) (step (before.foldl step s) c) after) :
      Ascent step level May s (k + 1) (before ++ c :: after)

theorem staysAbove_nil (h : k ≤ level s) : StaysAbove step level k s [] := by
  intro first hfirst
  rw [List.prefix_nil.mp hfirst]
  exact h

theorem StaysAbove.concat {c : C} (h : StaysAbove step level k s calls)
    (hc : k ≤ level ((calls ++ [c]).foldl step s)) : StaysAbove step level k s (calls ++ [c]) := by
  intro first hfirst
  rcases List.prefix_concat_iff.mp hfirst with rfl | hfirst
  · exact hc
  · exact h first hfirst

/-- **The last call that goes up** to a rung. -/
theorem exists_last_rise (h : IsLadder step level May) (hs : level s ≤ k)
    (hk : k + 1 ≤ level (calls.foldl step s)) :
    ∃ before c after, calls = before ++ c :: after ∧ level (before.foldl step s) = k ∧
      level (step (before.foldl step s) c) = k + 1 ∧ May (before.foldl step s) c ∧
      StaysAbove step level (k + 1) (step (before.foldl step s) c) after := by
  induction calls using List.reverseRecOn with
  | nil => exact absurd hk (Nat.not_le.mpr (Nat.lt_succ_of_le hs))
  | append_singleton calls c ih =>
    have hstep : (calls ++ [c]).foldl step s = step (calls.foldl step s) c := by
      rw [List.foldl_append, List.foldl_cons, List.foldl_nil]
    by_cases hbefore : k + 1 ≤ level (calls.foldl step s)
    · -- the rung has been reached before, and this call has not gone below it
      obtain ⟨before, d, after, rfl, hfrom, hto, hmay, hstays⟩ := ih hbefore
      refine ⟨before, d, after ++ [c], by simp, hfrom, hto, hmay, hstays.concat ?_⟩
      simpa [List.foldl_append] using hk
    · -- it is this call that goes up to the rung
      rw [hstep] at hk
      have hle := h.level_le (calls.foldl step s) c
      have hfrom : level (calls.foldl step s) = k := by omega
      have hto : level (step (calls.foldl step s) c) = k + 1 := by omega
      exact ⟨calls, c, [], rfl, hfrom, hto, h.may _ _ (by omega), staysAbove_nil hto.ge⟩

/-- **Every rung has been climbed.** -/
theorem ascent_of_le (h : IsLadder step level May) (hs : level s ≤ k)
    (hk : k ≤ level (calls.foldl step s)) : Ascent step level May s k calls := by
  induction k, hs using Nat.le_induction generalizing calls with
  | base => exact .start calls
  | succ k hs ih =>
    obtain ⟨before, c, after, rfl, hfrom, hto, hmay, hstays⟩ := exists_last_rise h hs hk
    exact .rise (ih hfrom.ge) hfrom hto hmay hstays

/-- Where no call may go up, none does. -/
theorem level_le_of_none (h : IsLadder step level May)
    (hnone : ∀ before c, before ++ [c] <+: calls → ¬ May (before.foldl step s) c) :
    level (calls.foldl step s) ≤ level s := by
  by_contra hlt
  obtain ⟨before, c, after, rfl, -, -, hmay, -⟩ :=
    exists_last_rise h (le_refl (level s)) (Nat.lt_of_not_le hlt)
  exact hnone before c ⟨after, by simp⟩ hmay

end Effect
