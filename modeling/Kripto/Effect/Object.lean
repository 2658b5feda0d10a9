/-
# Objects that answer calls one at a time

A lock, or the lack of concurrency, makes each call of an object one step: it answers and
leaves a new state.  `Object` is that step; a `Log` is a state together with the calls made so
far and their answers.  What is proved here is what every such object needs:

* `Log.keeps`: an invariant of logs holds along every sequence of calls whose steps meet a
  condition on the log they find, and `Log.run_keeps` is the rule without a condition;
* `Log.meeting_append`: such a condition is checked call by call, so a prefix of an admitted
  sequence is admitted;
* `Since`: what has been logged since the last entry of a kind;
* `Object.both`: two objects side by side, given the same calls.  That they agree is an
  invariant of the pair.
-/
import Mathlib.Data.List.Basic
import Mathlib.Data.List.Induction

namespace Effect

variable {σ τ κ ρ ρ' : Type}

/-! ## 1. Objects and logs -/

/-- What a call answers in a state, and the state it leaves. -/
abbrev Object (σ κ ρ : Type) : Type := σ → κ → ρ × σ

/-- A state with the calls that led to it and their answers, oldest first. -/
structure Log (σ κ ρ : Type) where
  past : List (κ × ρ)
  now : σ

namespace Log

/-- The log before any call. -/
def start (s : σ) : Log σ κ ρ := ⟨[], s⟩

@[simp] theorem start_past (s : σ) : (start s : Log σ κ ρ).past = [] := rfl

@[simp] theorem start_now (s : σ) : (start s : Log σ κ ρ).now = s := rfl

/-- One more call. -/
def call (f : Object σ κ ρ) (l : Log σ κ ρ) (k : κ) : Log σ κ ρ :=
  ⟨l.past ++ [(k, (f l.now k).1)], (f l.now k).2⟩

variable {f : Object σ κ ρ} {l : Log σ κ ρ} {k : κ}

@[simp] theorem call_past : (l.call f k).past = l.past ++ [(k, (f l.now k).1)] := rfl

@[simp] theorem call_now : (l.call f k).now = (f l.now k).2 := rfl

/-- Entries of a longer log, in their order: either all are older than the last call, or the last
of them is that call. -/
theorem sublist_call_past {es : List (κ × ρ)} {e : κ × ρ} :
    (es ++ [e]).Sublist (l.call f k).past ↔
      (es ++ [e]).Sublist l.past ∨ es.Sublist l.past ∧ e = (k, (f l.now k).1) := by
  have hlast : (es ++ [e]).reverse.Sublist (l.past ++ [(k, (f l.now k).1)]).reverse ↔ _ :=
    List.reverse_sublist
  have hold : (es ++ [e]).reverse.Sublist l.past.reverse ↔ _ := List.reverse_sublist
  simp only [List.reverse_append, List.reverse_singleton, List.singleton_append] at hlast hold
  rw [call_past, ← hlast, ← hold, List.cons_sublist_cons', List.reverse_sublist,
    and_comm (a := e = _)]

/-- A sequence of calls. -/
def calls (f : Object σ κ ρ) (l : Log σ κ ρ) (ks : List κ) : Log σ κ ρ := ks.foldl (call f) l

@[simp] theorem calls_nil : l.calls f [] = l := rfl

@[simp] theorem calls_cons (ks : List κ) : l.calls f (k :: ks) = (l.call f k).calls f ks := rfl

theorem calls_append (ks ks' : List κ) : l.calls f (ks ++ ks') = (l.calls f ks).calls f ks' :=
  List.foldl_append

/-! ## 2. Conditions on the calls of a run -/

/-- Each call of the sequence meets `C` in the log it finds. -/
def Meeting (f : Object σ κ ρ) (C : Log σ κ ρ → κ → Prop) : Log σ κ ρ → List κ → Prop
  | _, [] => True
  | l, k :: ks => C l k ∧ Meeting f C (l.call f k) ks

variable {C : Log σ κ ρ → κ → Prop}

instance Meeting.decidable [∀ l k, Decidable (C l k)] :
    ∀ (l : Log σ κ ρ) (ks : List κ), Decidable (Meeting f C l ks)
  | _, [] => isTrue trivial
  | l, k :: ks =>
    have := Meeting.decidable (l.call f k) ks
    inferInstanceAs (Decidable (C l k ∧ Meeting f C (l.call f k) ks))

theorem meeting_append {ks ks' : List κ} :
    Meeting f C l (ks ++ ks') ↔ Meeting f C l ks ∧ Meeting f C (l.calls f ks) ks' := by
  induction ks generalizing l with
  | nil => simp [Meeting]
  | cons k ks ih => simp [Meeting, ih, and_assoc]

/-- A condition on the calls themselves goes with any condition. -/
theorem meeting_and {D : κ → Prop} {ks : List κ} (h : Meeting f C l ks) (hks : ∀ k ∈ ks, D k) :
    Meeting f (fun l k => C l k ∧ D k) l ks := by
  induction ks generalizing l with
  | nil => trivial
  | cons k ks ih =>
    obtain ⟨hk, hrest⟩ := h
    exact ⟨⟨hk, hks k (by simp)⟩, ih hrest fun k' hk' => hks k' (by simp [hk'])⟩

/-- **Invariants along a run.**  What every admitted call keeps, an admitted run keeps. -/
theorem keeps {I : Log σ κ ρ → Prop} (hstep : ∀ l k, I l → C l k → I (l.call f k))
    {ks : List κ} (hl : I l) (h : Meeting f C l ks) : I (l.calls f ks) := by
  induction ks generalizing l with
  | nil => exact hl
  | cons k ks ih =>
    obtain ⟨hk, hks⟩ := h
    exact ih (hstep l k hl hk) hks

/-- What every call keeps, every run keeps. -/
theorem run_keeps {I : Log σ κ ρ → Prop} (hstep : ∀ l k, I l → I (l.call f k)) (hl : I l)
    (ks : List κ) : I (l.calls f ks) := by
  induction ks generalizing l with
  | nil => exact hl
  | cons k ks ih => exact ih (hstep l k hl)

/-- A log is cut where a run is cut. -/
theorem past_eq_append {s : σ} {ks : List κ} {es es' : List (κ × ρ)}
    (h : ((start s).calls f ks).past = es ++ es') :
    ∃ ks₁ ks₂, ks = ks₁ ++ ks₂ ∧ ((start s).calls f ks₁).past = es := by
  induction ks using List.reverseRecOn generalizing es' with
  | nil =>
    obtain ⟨rfl, -⟩ := List.append_eq_nil_iff.mp h.symm
    exact ⟨[], [], rfl, rfl⟩
  | append_singleton ks k ih =>
    rcases List.eq_nil_or_concat' es' with rfl | ⟨older, e, rfl⟩
    · exact ⟨ks ++ [k], [], by simp, by simpa using h⟩
    · rw [calls_append, calls_cons, calls_nil, call_past, ← List.append_assoc] at h
      obtain ⟨ks₁, ks₂, rfl, hks₁⟩ := ih (List.append_inj' h rfl).1
      exact ⟨ks₁, ks₂ ++ [k], by simp, hks₁⟩

/-- The same about the states alone. -/
theorem now_keeps {P : σ → Prop} (hstep : ∀ s k, P s → P (f s k).2) (hl : P l.now) (ks : List κ) :
    P (l.calls f ks).now :=
  run_keeps (I := fun l => P l.now) (fun l k => hstep l.now k) hl ks

end Log

/-! ## 3. Since an entry -/

/-- `after` is what has been logged since an entry of `P`, and has none of `Q`. -/
def Since (P Q : κ × ρ → Prop) (past after : List (κ × ρ)) : Prop :=
  ∃ before e, past = before ++ e :: after ∧ P e ∧ ∀ e' ∈ after, ¬ Q e'

section Since

variable {P Q : κ × ρ → Prop} {past after after' : List (κ × ρ)} {e : κ × ρ}

theorem Since.start (h : P e) : Since P Q (past ++ [e]) [] := ⟨past, e, rfl, h, by simp⟩

theorem Since.mem (h : Since P Q past after) : ∃ e ∈ past, P e := by
  obtain ⟨before, e, rfl, he, -⟩ := h
  exact ⟨e, by simp, he⟩

theorem Since.append (h : Since P Q past after) (he : ¬ Q e) :
    Since P Q (past ++ [e]) (after ++ [e]) := by
  obtain ⟨before, e₀, rfl, he₀, hafter⟩ := h
  refine ⟨before, e₀, by simp, he₀, fun e' he' => ?_⟩
  rcases List.mem_append.mp he' with he' | he'
  · exact hafter e' he'
  · obtain rfl := List.mem_singleton.mp he'
    exact he

/-- The last entry of `P` is one. -/
theorem Since.unique (h : Since P P past after) (h' : Since P P past after') : after = after' := by
  obtain ⟨before, e₀, rfl, he₀, hafter⟩ := h
  obtain ⟨before', e₁, heq, he₁, hafter'⟩ := h'
  rcases List.append_eq_append_iff.mp heq with ⟨c, -, hc⟩ | ⟨c, -, hc⟩
  · cases c with
    | nil => exact (List.cons.inj hc).2
    | cons _ c => exact absurd he₁ (hafter e₁ (by simp [(List.cons.inj hc).2]))
  · cases c with
    | nil => exact (List.cons.inj hc).2.symm
    | cons _ c => exact absurd he₀ (hafter' e₀ (by simp [(List.cons.inj hc).2]))

end Since

/-! ## 4. Two objects, the same calls -/

/-- Both objects answer each call. -/
def Object.both (f : Object σ κ ρ) (g : Object τ κ ρ') : Object (σ × τ) κ (ρ × ρ') :=
  fun s k => (((f s.1 k).1, (g s.2 k).1), ((f s.1 k).2, (g s.2 k).2))

end Effect
