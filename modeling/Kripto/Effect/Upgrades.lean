/-
# Upgrades step by step

A value has a version, and a table says which step leads from a version to the next one.  Steps are
taken as long as there are any, and each may raise (`Upgrades`).

* `Upgrades.unique`: there is one outcome;
* `upgrades_iff_of_returned`: if later there are more steps, what has been upgraded before goes on
  to the outcome that it would have had at once.
-/
import Mathlib.Data.Option.Basic
import Kripto.Effect.Outcome

namespace Effect

variable {ν α ε : Type}

/-- Where a step leads, and what it does. -/
structure Upgrade (ν α ε : Type) where
  target : ν
  apply : α → Except ε α

/-- `Upgrades next v a r`: from `a`, of version `v`, to the outcome `r`. -/
inductive Upgrades (next : ν → Option (Upgrade ν α ε)) : ν → α → Except ε (ν × α) → Prop
  | done {v : ν} {a : α} (hnone : next v = none) : Upgrades next v a (.ok (v, a))
  | raised {v : ν} {a : α} {u : Upgrade ν α ε} {e : ε} (hsome : next v = some u)
      (happly : u.apply a = .error e) : Upgrades next v a (.error e)
  | step {v : ν} {a b : α} {u : Upgrade ν α ε} {r : Except ε (ν × α)} (hsome : next v = some u)
      (happly : u.apply a = .ok b) (hrest : Upgrades next u.target b r) : Upgrades next v a r

variable {next next' : ν → Option (Upgrade ν α ε)} {v w : ν} {a b : α} {r r' : Except ε (ν × α)}

namespace Upgrades

/-- A value goes on from its first step. -/
theorem step_iff {u : Upgrade ν α ε} (hsome : next v = some u) (happly : u.apply a = .ok b) :
    Upgrades next v a r ↔ Upgrades next u.target b r := by
  refine ⟨fun h => ?_, .step hsome happly⟩
  cases h with
  | done hnone => exact nomatch hnone.symm.trans hsome
  | raised hsome' happly' =>
    obtain rfl := Option.some.inj (hsome.symm.trans hsome')
    exact nomatch happly.symm.trans happly'
  | step hsome' happly' hrest =>
    obtain rfl := Option.some.inj (hsome.symm.trans hsome')
    obtain rfl := Except.ok.inj (happly.symm.trans happly')
    exact hrest

/-- **There is one outcome.** -/
theorem unique (h : Upgrades next v a r) (h' : Upgrades next v a r') : r = r' := by
  induction h generalizing r' with
  | done hnone =>
    cases h' with
    | done => rfl
    | raised hsome => exact nomatch hnone.symm.trans hsome
    | step hsome => exact nomatch hnone.symm.trans hsome
  | raised hsome happly =>
    cases h' with
    | done hnone => exact nomatch hnone.symm.trans hsome
    | raised hsome' happly' =>
      obtain rfl := Option.some.inj (hsome.symm.trans hsome')
      obtain rfl := Except.error.inj (happly.symm.trans happly')
      rfl
    | step hsome' happly' =>
      obtain rfl := Option.some.inj (hsome.symm.trans hsome')
      exact nomatch happly.symm.trans happly'
  | step hsome happly _ ih => exact ih ((step_iff hsome happly).mp h')

end Upgrades

/-- What a step of `next` makes of a value, a step of `next'` does. -/
def Extends (next next' : ν → Option (Upgrade ν α ε)) : Prop :=
  ∀ v u a b, next v = some u → u.apply a = .ok b →
    ∃ u', next' v = some u' ∧ u'.apply a = .ok b ∧ u'.target = u.target

/-- **Upgraded before**, a value goes on as if it had not been. -/
theorem upgrades_iff_of_returned (hext : Extends next next') (h : Upgrades next v a (.ok (w, b))) :
    Upgrades next' w b r ↔ Upgrades next' v a r := by
  generalize hr : Except.ok (w, b) = returned at h
  induction h with
  | done =>
    cases hr
    exact Iff.rfl
  | raised => cases hr
  | step hsome happly _ ih =>
    obtain ⟨u', hsome', happly', htarget⟩ := hext _ _ _ _ hsome happly
    rw [ih hr, ← htarget, Upgrades.step_iff hsome' happly']

end Effect
