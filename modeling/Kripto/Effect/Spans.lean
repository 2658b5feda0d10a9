/-
# Spans with an open end

A span is half open: from its start up to its end and without it, or on and on if it has none.
`Span.Overlaps` is a test of two spans that takes the last moment there is for an end that is
missing.  Two spans that have no end have that moment in common nevertheless, and if it is the only
one the test does not see it (`Span.meet_iff`).

* `Timeline.apart_iff`: of versions that are apart, at most one is valid at a moment;
* `Timeline.apart_append_iff`: what the test lets in keeps them apart, unless it has just the last
  moment in common with one of them.
-/
import Mathlib.Data.List.Pairwise
import Mathlib.Order.BoundedOrder.Lattice
import Mathlib.Order.MinMax

namespace Effect

/-! ## 1. Spans -/

structure Span (α : Type) [LT α] where
  start : α
  stop : Option α
  valid : ∀ e ∈ stop, start < e

namespace Span

variable {α : Type} [LinearOrder α] {s s' : Span α} {t : α}

def Contains (s : Span α) (t : α) : Prop := s.start ≤ t ∧ ∀ e ∈ s.stop, t < e

instance (s : Span α) (t : α) : Decidable (s.Contains t) :=
  inferInstanceAs (Decidable (s.start ≤ t ∧ ∀ e ∈ s.stop, t < e))

/-- They have a moment in common. -/
def Meet (s s' : Span α) : Prop := ∃ t, s.Contains t ∧ s'.Contains t

/-- If there is a common moment, the later start is one. -/
theorem meet_iff_later : Meet s s' ↔
    (∀ e ∈ s.stop, max s.start s'.start < e) ∧ ∀ e ∈ s'.stop, max s.start s'.start < e := by
  constructor
  · rintro ⟨t, ⟨hstart, hstop⟩, hstart', hstop'⟩
    have hlater := max_le hstart hstart'
    exact ⟨fun e he => hlater.trans_lt (hstop e he), fun e he => hlater.trans_lt (hstop' e he)⟩
  · rintro ⟨hstop, hstop'⟩
    exact ⟨_, ⟨le_max_left _ _, hstop⟩, le_max_right _ _, hstop'⟩

variable [OrderTop α]

def Overlaps (s s' : Span α) : Prop :=
  max s.start s'.start < min (s.stop.getD ⊤) (s'.stop.getD ⊤)

instance (s s' : Span α) : Decidable (s.Overlaps s') :=
  inferInstanceAs (Decidable (max s.start s'.start < min (s.stop.getD ⊤) (s'.stop.getD ⊤)))

/-- Neither has an end, and only the last moment is in both. -/
def MeetLast (s s' : Span α) : Prop :=
  s.stop = none ∧ s'.stop = none ∧ max s.start s'.start = ⊤

/-- **What the test sees**, and what it does not. -/
theorem meet_iff : Meet s s' ↔ s.Overlaps s' ∨ s.MeetLast s' := by
  rw [meet_iff_later, Overlaps, MeetLast, lt_min_iff]
  cases s.stop with
  | none =>
    cases s'.stop with
    | none => simpa using lt_or_eq_of_le (le_top (a := max s.start s'.start))
    | some e' =>
      have hlt : max s.start s'.start < e' → max s.start s'.start < ⊤ := fun h => h.trans_le le_top
      simpa using hlt
  | some e =>
    cases s'.stop with
    | none =>
      have hlt : max s.start s'.start < e → max s.start s'.start < ⊤ := fun h => h.trans_le le_top
      simpa using hlt
    | some e' => simp

end Span

/-! ## 2. Versions -/

/-- What a version is a version of, and when it is valid. -/
structure Timeline (ν κ α : Type) [LT α] where
  key : ν → κ
  span : ν → Span α

namespace Timeline

variable {ν κ α : Type} [LinearOrder α] {T : Timeline ν κ α} {versions : List ν} {v e : ν} {k : κ}
  {t : α}

/-- No two versions of one thing are valid at the same moment. -/
def Apart (T : Timeline ν κ α) (versions : List ν) : Prop :=
  versions.Pairwise fun e v => T.key e = T.key v → ¬ (T.span e).Meet (T.span v)

section Covering

variable [DecidableEq κ]

/-- The versions of a thing that are valid at a moment. -/
def covering (T : Timeline ν κ α) (versions : List ν) (k : κ) (t : α) : List ν :=
  versions.filter fun v => T.key v = k ∧ (T.span v).Contains t

theorem mem_covering :
    v ∈ T.covering versions k t ↔ v ∈ versions ∧ T.key v = k ∧ (T.span v).Contains t := by
  rw [covering, List.mem_filter, decide_eq_true_iff]

/-- **Versions are apart** if there is no moment with two of them. -/
theorem apart_iff : T.Apart versions ↔ ∀ k t, (T.covering versions k t).length ≤ 1 := by
  rw [Apart, List.pairwise_iff_forall_sublist]
  constructor
  · intro h k t
    rcases hcovering : T.covering versions k t with - | ⟨e, - | ⟨v, rest⟩⟩
    · exact Nat.zero_le _
    · exact le_refl _
    · have hsub : [e, v].Sublist (T.covering versions k t) := by
        rw [hcovering]
        exact ((List.nil_sublist rest).cons_cons v).cons_cons e
      have he := (mem_covering.mp (hsub.subset List.mem_cons_self)).2
      have hv := (mem_covering.mp (hsub.subset (List.mem_cons_of_mem e List.mem_cons_self))).2
      have hapart := h (hsub.trans List.filter_sublist)
      exact absurd ⟨t, he.2, hv.2⟩ (hapart (he.1.trans hv.1.symm))
  · rintro h e v hsub hkey ⟨t, he, hv⟩
    have hboth : T.covering [e, v] (T.key v) t = [e, v] := by simp [covering, hkey, he, hv]
    have hle : (T.covering [e, v] (T.key v) t).length ≤ (T.covering versions (T.key v) t).length :=
      (hsub.filter _).length_le
    rw [hboth] at hle
    exact absurd (hle.trans (h (T.key v) t)) (by simp)

/-- The version that is valid is the only one. -/
theorem Apart.covering_eq_singleton_iff (h : T.Apart versions) :
    T.covering versions k t = [v] ↔ v ∈ versions ∧ T.key v = k ∧ (T.span v).Contains t := by
  rw [← mem_covering]
  constructor
  · intro hone
    rw [hone]
    exact List.mem_singleton_self v
  · intro hmem
    have hlength := le_antisymm (apart_iff.mp h k t) (List.length_pos_of_mem hmem)
    obtain ⟨w, hw⟩ := List.length_eq_one_iff.mp hlength
    rw [hw, List.mem_singleton] at hmem
    rw [hw, hmem]

end Covering

variable [OrderTop α]

/-- The test lets a version in. -/
def Admits (T : Timeline ν κ α) (versions : List ν) (v : ν) : Prop :=
  ∀ e ∈ versions, T.key e = T.key v → ¬ (T.span e).Overlaps (T.span v)

/-- With one of the versions it has just the last moment in common. -/
def MeetsLast (T : Timeline ν κ α) (versions : List ν) (v : ν) : Prop :=
  ∃ e ∈ versions, T.key e = T.key v ∧ (T.span e).MeetLast (T.span v)

/-- **One more version**: where the test is not enough. -/
theorem apart_append_iff (h : T.Apart versions) (hadmits : T.Admits versions v) :
    T.Apart (versions ++ [v]) ↔ ¬ T.MeetsLast versions v := by
  rw [Apart, List.pairwise_append]
  constructor
  · rintro ⟨-, -, happart⟩ ⟨e, he, hkey, hlast⟩
    exact happart e he v (List.mem_singleton_self v) hkey (Span.meet_iff.mpr (.inr hlast))
  · intro hlast
    refine ⟨h, List.pairwise_singleton _ _, fun e he w hw hkey hmeet => ?_⟩
    obtain rfl := List.mem_singleton.mp hw
    rcases Span.meet_iff.mp hmeet with hoverlaps | hmeet
    · exact hadmits e he hkey hoverlaps
    · exact hlast ⟨e, he, hkey, hmeet⟩

end Timeline

end Effect
