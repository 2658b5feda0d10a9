/-
# Windows of time

A counter that starts again from zero has windows: each begins where it starts again, and the next
one begins a whole length later or later still.  What is counted is known from the entries
(`Counter`).

* `Counter.restart`, `Counter.count`: the two things that a counter can do;
* `weightIn_between_le`: a stretch of time that is shorter than a window meets at most two of them,
  so that what is counted in it is at most twice what is counted in one.
-/
import Mathlib.Algebra.Order.BigOperators.Group.List
import Mathlib.Data.Finset.Max
import Mathlib.Data.List.Basic

namespace Effect

/-- Something that is counted: in which window, when, and how much it counts. -/
structure Entry (T A : Type) where
  window : T
  time : T
  weight : A

variable {T A : Type}

/-! ## 1. What is counted -/

section Weights

variable [AddCommMonoid A]

/-- What the entries with a property count. -/
def weightIn (p : Entry T A → Prop) [DecidablePred p] (es : List (Entry T A)) : A :=
  ((es.filter fun e => p e).map Entry.weight).sum

variable {p q : Entry T A → Prop} [DecidablePred p] [DecidablePred q] {es : List (Entry T A)}
  {e : Entry T A}

theorem weightIn_nil : weightIn p [] = (0 : A) := rfl

theorem weightIn_concat_of_pos (h : p e) : weightIn p (es ++ [e]) = weightIn p es + e.weight := by
  simp [weightIn, h]

theorem weightIn_concat_of_neg (h : ¬ p e) : weightIn p (es ++ [e]) = weightIn p es := by
  simp [weightIn, h]

/-- Nothing is counted of what no entry has. -/
theorem weightIn_eq_zero (h : ∀ e ∈ es, ¬ p e) : weightIn p es = 0 := by
  have hnone : es.filter (fun e => p e) = [] := by
    rw [List.filter_eq_nil_iff]
    intro e he
    rw [decide_eq_true_eq]
    exact h e he
  rw [weightIn, hnone]
  rfl

variable [PartialOrder A] [IsOrderedAddMonoid A]

/-- An entry of one kind is of one of two. -/
theorem weightIn_le_add {p' : Entry T A → Prop} [DecidablePred p']
    (hweight : ∀ e ∈ es, 0 ≤ e.weight) (h : ∀ e ∈ es, p e → q e ∨ p' e) :
    weightIn p es ≤ weightIn q es + weightIn p' es := by
  induction es using List.reverseRecOn with
  | nil => simp [weightIn_nil]
  | append_singleton es e ih =>
    have hrest := ih (fun e' he' => hweight e' (List.mem_append_left _ he'))
      fun e' he' => h e' (List.mem_append_left _ he')
    have hmem : e ∈ es ++ [e] := List.mem_append_right _ (List.mem_singleton_self e)
    have he := hweight e hmem
    have hcons : ∀ (r : Entry T A → Prop) [DecidablePred r],
        weightIn r es ≤ weightIn r (es ++ [e]) := by
      intro r _
      by_cases hr : r e
      · rw [weightIn_concat_of_pos hr]
        exact le_add_of_nonneg_right he
      · rw [weightIn_concat_of_neg hr]
    by_cases hp : p e
    · rw [weightIn_concat_of_pos hp]
      rcases h e hmem hp with hq | hp'
      · rw [weightIn_concat_of_pos hq, add_right_comm]
        exact add_le_add_left (hrest.trans (add_le_add_right (hcons p') _)) _
      · rw [weightIn_concat_of_pos hp', ← add_assoc]
        exact add_le_add_left (hrest.trans (add_le_add_left (hcons q) _)) _
    · rw [weightIn_concat_of_neg hp]
      exact hrest.trans (add_le_add (hcons q) (hcons p'))

end Weights

/-! ## 2. Counters -/

variable [AddCommGroup T] [LinearOrder T] [IsOrderedAddMonoid T]

/-- Each entry is in its window, and the windows have the length `length`. -/
structure Windowed (length : T) (es : List (Entry T A)) : Prop where
  inside : ∀ e ∈ es, e.window ≤ e.time ∧ e.time < e.window + length
  apart : ∀ e ∈ es, ∀ e' ∈ es, e.window < e'.window → e.window + length ≤ e'.window

variable [AddCommMonoid A]

/-- A counter that last started at `start` and has counted `used` since. -/
structure Counter (length start : T) (used : A) (es : List (Entry T A)) : Prop where
  windowed : Windowed length es
  used : used = weightIn (fun e => e.window = start) es
  latest : ∀ e ∈ es, e.window = start ∨ e.window + length ≤ start

section Counter

variable {length start now : T} {used weight : A} {es : List (Entry T A)}

omit [IsOrderedAddMonoid T] in
theorem counter_start (length start : T) : Counter length start (0 : A) [] where
  windowed := ⟨List.forall_mem_nil _, List.forall_mem_nil _⟩
  used := rfl
  latest := List.forall_mem_nil _

/-- **It starts again** when its window is over. -/
theorem Counter.restart (h : Counter length start used es) (hlength : 0 < length)
    (hnow : start + length ≤ now) : Counter length now (0 : A) es := by
  have hearlier : ∀ e ∈ es, e.window + length ≤ now := by
    intro e he
    rcases h.latest e he with hwindow | hwindow
    · rwa [hwindow]
    · exact hwindow.trans ((le_add_of_nonneg_right hlength.le).trans hnow)
  refine ⟨h.windowed, ?_, fun e he => .inr (hearlier e he)⟩
  refine (weightIn_eq_zero fun e he hwindow => ?_).symm
  have hlt : e.window < e.window + length := lt_add_of_pos_right _ hlength
  exact absurd (hearlier e he) (not_le.mpr (hwindow ▸ hlt))

/-- **It counts** what comes in its window. -/
theorem Counter.count (h : Counter length start used es) (hstart : start ≤ now)
    (hnow : now < start + length) :
    Counter length start (used + weight) (es ++ [⟨start, now, weight⟩]) where
  windowed := by
    refine ⟨?_, ?_⟩
    · intro e he
      rcases List.mem_append.mp he with he | he
      · exact h.windowed.inside e he
      · rw [List.mem_singleton.mp he]
        exact ⟨hstart, hnow⟩
    · intro e he e' he' hlt
      rcases List.mem_append.mp he with he | he <;> rcases List.mem_append.mp he' with he' | he'
      · exact h.windowed.apart e he e' he' hlt
      · rw [List.mem_singleton.mp he'] at hlt ⊢
        exact (h.latest e he).resolve_left hlt.ne
      · rw [List.mem_singleton.mp he] at hlt ⊢
        rcases h.latest e' he' with hwindow | hwindow
        · exact absurd hwindow hlt.ne'
        · have hpos : 0 < length := lt_add_iff_pos_right start |>.mp (hstart.trans_lt hnow)
          have hbefore : e'.window < start := (lt_add_of_pos_right _ hpos).trans_le hwindow
          exact absurd hlt hbefore.not_gt
      · rw [List.mem_singleton.mp he, List.mem_singleton.mp he'] at hlt
        exact absurd hlt (lt_irrefl _)
  used := by
    have hcounts : (⟨start, now, weight⟩ : Entry T A).window = start := rfl
    rw [weightIn_concat_of_pos hcounts, h.used]
  latest := by
    intro e he
    rcases List.mem_append.mp he with he | he
    · exact h.latest e he
    · exact .inl (by rw [List.mem_singleton.mp he])

end Counter

/-! ## 3. Any stretch of time -/

omit [AddCommMonoid A] in
/-- **At most two windows** meet a stretch of time that is shorter than they are. -/
theorem Windowed.two {length start finish : T} {es : List (Entry T A)} (h : Windowed length es)
    (hshort : finish < start + length) :
    ∃ first last, ∀ e ∈ es, start ≤ e.time ∧ e.time ≤ finish →
      e.window = first ∨ e.window = last := by
  classical
  let met := (es.filter fun e => start ≤ e.time ∧ e.time ≤ finish).map Entry.window
  by_cases hmet : met.toFinset.Nonempty
  · obtain ⟨first, hfirst, hmin⟩ := met.toFinset.exists_min_image id hmet
    obtain ⟨last, hlast, hmax⟩ := met.toFinset.exists_max_image id hmet
    have hof : ∀ w ∈ met.toFinset, ∃ e ∈ es, (start ≤ e.time ∧ e.time ≤ finish) ∧ e.window = w := by
      intro w hw
      obtain ⟨e, he, rfl⟩ := List.mem_map.mp (List.mem_toFinset.mp hw)
      obtain ⟨he, hin⟩ := List.mem_filter.mp he
      exact ⟨e, he, by simpa using hin, rfl⟩
    obtain ⟨e₁, he₁, hin₁, rfl⟩ := hof first hfirst
    obtain ⟨e₂, he₂, hin₂, rfl⟩ := hof last hlast
    refine ⟨e₁.window, e₂.window, fun e he hin => ?_⟩
    have hw : e.window ∈ met.toFinset := by
      refine List.mem_toFinset.mpr (List.mem_map_of_mem (List.mem_filter.mpr ⟨he, ?_⟩))
      simpa using hin
    by_contra hne
    rw [not_or] at hne
    have hafter := h.apart _ he₁ _ he (lt_of_le_of_ne (hmin _ hw) (Ne.symm hne.1))
    have hbefore := h.apart _ he _ he₂ (lt_of_le_of_ne (hmax _ hw) hne.2)
    have hlong : start + length ≤ finish := calc
      start + length ≤ e₁.time + length := add_le_add_left hin₁.1 _
      _ ≤ e₁.window + length + length := add_le_add_left (h.inside _ he₁).2.le _
      _ ≤ e.window + length := add_le_add_left hafter _
      _ ≤ e₂.window := hbefore
      _ ≤ e₂.time := (h.inside _ he₂).1
      _ ≤ finish := hin₂.2
    exact absurd hshort (not_lt.mpr hlong)
  · refine ⟨start, start, fun e he hin => absurd ⟨e.window, ?_⟩ hmet⟩
    refine List.mem_toFinset.mpr (List.mem_map_of_mem (List.mem_filter.mpr ⟨he, ?_⟩))
    simpa using hin

/-- **What is counted in it** is at most twice what is counted in one window. -/
theorem weightIn_between_le [PartialOrder A] [IsOrderedAddMonoid A] {length start finish : T}
    {limit : A} {es : List (Entry T A)} (h : Windowed length es)
    (hweight : ∀ e ∈ es, 0 ≤ e.weight)
    (hlimit : ∀ w, weightIn (fun e => e.window = w) es ≤ limit) (hshort : finish < start + length) :
    weightIn (fun e => start ≤ e.time ∧ e.time ≤ finish) es ≤ limit + limit := by
  obtain ⟨first, last, htwo⟩ := h.two hshort
  exact (weightIn_le_add hweight htwo).trans (add_le_add (hlimit first) (hlimit last))

end Effect
