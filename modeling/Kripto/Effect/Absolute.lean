/-
# Absolute changes

A change says what a key has from now on: a value, or nothing.  It does not say what is added to
what was there, so what a sequence of changes leaves under a key is what the last change to the
key says (`after_apply`).  Two consequences:

* `after_congr`: sequences with the same last changes leave the same;
* `after_overlap`: a sequence that begins with changes made already is as good as the rest of it.

If the changes are numbered in order, it does not matter where a range of them starts, as long as
it leaves no gap (`after_catchUp`).
-/
import Mathlib.Algebra.Group.Basic
import Mathlib.Algebra.Group.Int.Defs
import Mathlib.Data.List.Basic
import Mathlib.Logic.Function.Basic

namespace Effect

variable {κ ν : Type} [DecidableEq κ]

/-- The key has this value from now on, or none. -/
abbrev Change (κ ν : Type) : Type := κ × Option ν

/-- What a sequence of changes leaves. -/
def after (s : κ → Option ν) (cs : List (Change κ ν)) : κ → Option ν :=
  cs.foldl (fun s c => Function.update s c.1 c.2) s

/-- What the last change to a key says. -/
def lastChange : List (Change κ ν) → κ → Option (Option ν)
  | [], _ => none
  | c :: cs, k => (lastChange cs k).or (if c.1 = k then some c.2 else none)

variable {s : κ → Option ν} {cs xs ys zs : List (Change κ ν)} {k : κ} {v : Option ν}

@[simp] theorem after_nil : after s [] = s := rfl

@[simp] theorem after_cons (c : Change κ ν) :
    after s (c :: cs) = after (Function.update s c.1 c.2) cs := rfl

theorem lastChange_append (xs ys : List (Change κ ν)) (k : κ) :
    lastChange (xs ++ ys) k = (lastChange ys k).or (lastChange xs k) := by
  induction xs with
  | nil => simp [lastChange]
  | cons c xs ih => rw [List.cons_append, lastChange, ih, lastChange, Option.or_assoc]

/-- **The last change to a key** decides what is left under it. -/
theorem after_apply (s : κ → Option ν) (cs : List (Change κ ν)) (k : κ) :
    after s cs k = (lastChange cs k).getD (s k) := by
  induction cs generalizing s with
  | nil => rfl
  | cons c cs ih =>
    rw [after_cons, ih, lastChange]
    by_cases hk : c.1 = k
    · subst hk
      cases lastChange cs c.1 <;> simp
    · cases lastChange cs k <;> simp [hk, Function.update_of_ne (Ne.symm hk)]

theorem after_congr (h : lastChange xs = lastChange ys) : after s xs = after s ys := by
  funext k
  rw [after_apply, after_apply, h]

/-- **Changes made already may be made again**, if they are followed by the same ones. -/
theorem after_overlap : after (after s (xs ++ ys)) (ys ++ zs) = after s (xs ++ ys ++ zs) := by
  funext k
  simp only [after_apply, lastChange_append]
  cases lastChange zs k with
  | some v => rfl
  | none => cases lastChange ys k <;> rfl

/-- A key with a change has a last one. -/
theorem exists_lastChange (h : (k, v) ∈ cs) : ∃ w, lastChange cs k = some w := by
  induction cs with
  | nil => cases h
  | cons c cs ih =>
    rw [lastChange]
    rcases List.mem_cons.mp h with rfl | hrest
    · cases lastChange cs k with
      | none => exact ⟨v, by simp⟩
      | some w => exact ⟨w, rfl⟩
    · obtain ⟨w, hw⟩ := ih hrest
      exact ⟨w, by rw [hw]; rfl⟩

/-- What the last change says is said by a change. -/
theorem mem_of_lastChange (h : lastChange cs k = some v) : (k, v) ∈ cs := by
  induction cs with
  | nil => cases h
  | cons c cs ih =>
    rw [lastChange] at h
    cases hlast : lastChange cs k with
    | some w =>
      rw [hlast] at h
      cases h
      exact List.mem_cons_of_mem _ (ih hlast)
    | none =>
      rw [hlast] at h
      by_cases hk : c.1 = k
      · simp only [hk, if_true, Option.or_some, Option.some.injEq] at h
        rw [← hk, ← h]
        exact List.mem_cons_self
      · simp [hk] at h

/-- **A summary**: a sequence that makes exactly the last changes of another. -/
theorem lastChange_summary (h : ∀ k v, (k, v) ∈ xs ↔ lastChange ys k = some v) :
    lastChange xs = lastChange ys := by
  funext k
  cases hxs : lastChange xs k with
  | some v => exact ((h k v).mp (mem_of_lastChange hxs)).symm
  | none =>
    cases hys : lastChange ys k with
    | none => rfl
    | some v =>
      obtain ⟨w, hw⟩ := exists_lastChange ((h k v).mpr hys)
      rw [hxs] at hw
      cases hw

/-! ## Numbered changes -/

abbrev Numbered (κ ν : Type) : Type := ℤ × Change κ ν

variable {ns : List (Numbered κ ν)} {first n last : ℤ}

/-- The changes up to a number. -/
def upTo (last : ℤ) (ns : List (Numbered κ ν)) : List (Change κ ν) :=
  (ns.filter fun c => c.1 ≤ last).map (·.2)

/-- The changes of a range of numbers. -/
def within (first last : ℤ) (ns : List (Numbered κ ν)) : List (Change κ ν) :=
  upTo last (ns.filter fun c => first ≤ c.1)

/-- A list in which what has a property stands before what does not have it. -/
theorem filter_append_filter_not {α : Type} {p : α → Bool} {xs : List α}
    (h : xs.Pairwise fun x y => p y = true → p x = true) :
    xs.filter p ++ xs.filter (fun x => !p x) = xs := by
  induction xs with
  | nil => rfl
  | cons x xs ih =>
    obtain ⟨hx, hxs⟩ := List.pairwise_cons.mp h
    cases hp : p x with
    | true => simp [hp, ih hxs]
    | false =>
      have hnone : ∀ y ∈ xs, p y = false := by
        intro y hy
        by_contra hpy
        exact absurd (hx y hy (by simpa using hpy)) (by simp [hp])
      have hleft : xs.filter p = [] := List.filter_eq_nil_iff.mpr fun y hy => by simp [hnone y hy]
      have hright : xs.filter (fun x => !p x) = xs :=
        List.filter_eq_self.mpr fun y hy => by simp [hnone y hy]
      simp [hp, hleft, hright]

omit [DecidableEq κ] in
theorem upTo_split (hns : ns.Pairwise fun c c' => c.1 ≤ c'.1) (hn : n ≤ last) :
    upTo last ns = upTo n ns ++ within (n + 1) last ns := by
  have horder : (ns.filter fun c => c.1 ≤ last).Pairwise fun c c' =>
      decide (c'.1 ≤ n) = true → decide (c.1 ≤ n) = true := by
    refine (hns.filter _).imp fun hle hn' => ?_
    rw [decide_eq_true_eq] at hn' ⊢
    exact Int.le_trans hle hn'
  have hsplit := filter_append_filter_not horder
  unfold within upTo
  rw [← List.map_append, ← hsplit, List.filter_filter, List.filter_filter, List.filter_filter]
  congr 2
  · refine List.filter_congr fun c _ => ?_
    rw [Bool.eq_iff_iff]
    simp only [Bool.and_eq_true, decide_eq_true_eq]
    omega
  · refine List.filter_congr fun c _ => ?_
    rw [Bool.eq_iff_iff]
    simp only [Bool.and_eq_true, Bool.not_eq_true', decide_eq_true_eq, decide_eq_false_iff_not]
    omega

omit [DecidableEq κ] in
theorem within_split (hns : ns.Pairwise fun c c' => c.1 ≤ c'.1) (hfirst : first ≤ n + 1)
    (hn : n ≤ last) : within first last ns = within first n ns ++ within (n + 1) last ns := by
  have hrest : within (n + 1) last (ns.filter fun c => first ≤ c.1) = within (n + 1) last ns := by
    unfold within
    rw [List.filter_filter]
    refine congrArg _ (List.filter_congr fun c _ => ?_)
    rw [Bool.eq_iff_iff]
    simp only [Bool.and_eq_true, decide_eq_true_eq]
    omega
  rw [within, upTo_split (hns.filter _) hn, hrest]
  rfl

/-- **Catching up**: a range of changes that begins no later than with the next one. -/
theorem after_catchUp (hns : ns.Pairwise fun c c' => c.1 ≤ c'.1) (hfirst : first ≤ n + 1)
    (hn : n ≤ last) :
    after (after s (upTo n ns)) (within first last ns) = after s (upTo last ns) := by
  have hseen : upTo n ns = upTo (first - 1) ns ++ within first n ns := by
    have h : upTo n ns = upTo (first - 1) ns ++ within (first - 1 + 1) n ns :=
      upTo_split hns (by omega)
    rwa [sub_add_cancel] at h
  rw [within_split hns hfirst hn, upTo_split hns hn, hseen, after_overlap]

end Effect
