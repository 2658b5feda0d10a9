/-
# The recovery gate

`risk/state.py`, `RecoveryHysteresisGate`: one green sample does not open the gate, a row of them
does, when it has enough of them and lasts long enough.  A clock that runs backwards is an error,
and the gate forgets all that it has seen, the clock included.  So the call after an error cannot
be one again, whatever its time is.

* `Streak`: the row of green observations at the end of the calls;
* `observe_characterised`: when a call raises, what is left then, and when a call is answered with
  `True`, over all sequences of calls;
* `regression_not_refused`: a call that is earlier than its predecessor, and is answered.
-/
import Kripto.Risk.State
import Mathlib.Data.List.Induction
import Mathlib.Data.Rat.Defs

namespace Kripto.Risk.Hysteresis

open Execution

/-! ## 1. `risk/state.py`, `RecoveryHysteresisGate` -/

/-- The source's own bound on the time is 30 seconds. -/
structure RecoveryHysteresisGate (T : Type) where
  minHealthySeconds : T
  minConsecutiveSuccesses : ℤ := 3
  firstGreenAt : Option T := none
  lastSeenAt : Option T := none
  consecutiveSuccesses : ℤ := 0
  deriving DecidableEq

namespace RecoveryHysteresisGate

variable {T : Type}

def reset (self : RecoveryHysteresisGate T) (keepClock : Bool := false) :
    RecoveryHysteresisGate T :=
  { self with
    firstGreenAt := none
    consecutiveSuccesses := 0
    lastSeenAt := if keepClock then self.lastSeenAt else none }

variable [LT T] [DecidableLT T] [LE T] [DecidableLE T] [Sub T]

/-- Whether `now` is before the time last seen. -/
def backwards (self : RecoveryHysteresisGate T) (now : T) : Bool :=
  self.lastSeenAt.any fun last => now < last

def observe (self : RecoveryHysteresisGate T) (checks : RecoveryChecks) (now : T) :
    Except Exc Bool × RecoveryHysteresisGate T :=
  if self.backwards now then
    (.error (.valueError "recovery clock moved backwards"), self.reset)
  else
    let self := { self with lastSeenAt := some now }
    if !checks.allGreen then (.ok false, self.reset true)
    else
      let first := self.firstGreenAt.getD now
      let self := { self with
        firstGreenAt := some first
        consecutiveSuccesses := self.consecutiveSuccesses + 1 }
      (.ok (self.minConsecutiveSuccesses ≤ self.consecutiveSuccesses ∧
        self.minHealthySeconds ≤ now - first), self)

end RecoveryHysteresisGate

/-! ## 2. Calls -/

structure Observation (T : Type) where
  checks : RecoveryChecks
  now : T

section Calls

variable {T : Type} [LT T] [DecidableLT T] [LE T] [DecidableLE T] [Sub T]

def Observation.answer (gate : RecoveryHysteresisGate T) (o : Observation T) : Except Exc Bool :=
  (gate.observe o.checks o.now).1

def Observation.next (gate : RecoveryHysteresisGate T) (o : Observation T) :
    RecoveryHysteresisGate T :=
  (gate.observe o.checks o.now).2

/-- The gate after these calls. -/
def observed (gate : RecoveryHysteresisGate T) (calls : List (Observation T)) :
    RecoveryHysteresisGate T :=
  calls.foldl Observation.next gate

/-- A call raises after these. -/
def Raises (gate : RecoveryHysteresisGate T) (calls : List (Observation T)) (o : Observation T) :
    Prop :=
  o.answer (observed gate calls) = .error (.valueError "recovery clock moved backwards")

/-- What the calls end with, since the last that is not green or raises. -/
inductive Streak (gate : RecoveryHysteresisGate T) :
    List (Observation T) → List (Observation T) → Prop
  | start : Streak gate [] []
  | interrupted {calls : List (Observation T)} {o : Observation T}
      (h : ¬ o.checks.allGreen ∨ Raises gate calls o) : Streak gate (calls ++ [o]) []
  | green {calls streak : List (Observation T)} {o : Observation T} (h : Streak gate calls streak)
      (hgreen : o.checks.allGreen) (hclock : ¬ Raises gate calls o) :
      Streak gate (calls ++ [o]) (streak ++ [o])

/-- A gate that has seen nothing. -/
def fresh (minHealthySeconds : T) (minConsecutiveSuccesses : ℤ) : RecoveryHysteresisGate T :=
  { minHealthySeconds, minConsecutiveSuccesses }

/-! ## 3. One call -/

variable {gate : RecoveryHysteresisGate T} {calls streak : List (Observation T)}
  {o : Observation T}

theorem observed_concat : observed gate (calls ++ [o]) = o.next (observed gate calls) := by
  rw [observed, List.foldl_append]
  rfl

/-- **What a call can do**: raise, interrupt the row, or make it longer. -/
theorem observe_cases (gate : RecoveryHysteresisGate T) (o : Observation T) :
    gate.backwards o.now = true ∧
        o.answer gate = .error (.valueError "recovery clock moved backwards") ∧
        o.next gate = gate.reset ∨
      gate.backwards o.now = false ∧ o.checks.allGreen = false ∧ o.answer gate = .ok false ∧
        o.next gate = { gate.reset with lastSeenAt := some o.now } ∨
      gate.backwards o.now = false ∧ o.checks.allGreen = true ∧
        o.answer gate = .ok (decide (gate.minConsecutiveSuccesses ≤ gate.consecutiveSuccesses + 1 ∧
          gate.minHealthySeconds ≤ o.now - gate.firstGreenAt.getD o.now)) ∧
        o.next gate = { gate with
          firstGreenAt := some (gate.firstGreenAt.getD o.now)
          lastSeenAt := some o.now
          consecutiveSuccesses := gate.consecutiveSuccesses + 1 } := by
  unfold Observation.answer Observation.next RecoveryHysteresisGate.observe
  cases gate.backwards o.now with
  | true => exact .inl ⟨rfl, rfl, rfl⟩
  | false =>
    cases o.checks.allGreen with
    | false => exact .inr (.inl ⟨rfl, rfl, rfl, rfl⟩)
    | true => exact .inr (.inr ⟨rfl, rfl, rfl, rfl⟩)

theorem answer_eq_error_iff :
    o.answer gate = .error (.valueError "recovery clock moved backwards") ↔
      gate.backwards o.now = true := by
  rcases observe_cases gate o with ⟨hclock, hanswer, -⟩ | ⟨hclock, -, hanswer, -⟩ |
    ⟨hclock, -, hanswer, -⟩
  · exact iff_of_true hanswer hclock
  · exact iff_of_false (by rw [hanswer]; exact nofun) (by rw [hclock]; exact nofun)
  · exact iff_of_false (by rw [hanswer]; exact nofun) (by rw [hclock]; exact nofun)

/-- **A call that interrupts the row** is not answered with `True`, and leaves no row. -/
theorem observe_interrupted
    (ho : ¬ o.checks.allGreen ∨
      o.answer gate = .error (.valueError "recovery clock moved backwards")) :
    o.answer gate ≠ .ok true ∧ (o.next gate).firstGreenAt = none ∧
      (o.next gate).consecutiveSuccesses = 0 := by
  rcases observe_cases gate o with ⟨-, hanswer, hnext⟩ | ⟨-, -, hanswer, hnext⟩ |
    ⟨hclock, hgreen, -, -⟩
  · rw [hanswer, hnext]
    exact ⟨nofun, rfl, rfl⟩
  · rw [hanswer, hnext]
    exact ⟨nofun, rfl, rfl⟩
  · rcases ho with hred | herror
    · exact absurd hgreen hred
    · rw [answer_eq_error_iff, hclock] at herror
      exact nomatch herror

/-- **A call that makes the row longer.** -/
theorem observe_green (hgreen : o.checks.allGreen)
    (hclock : ¬ o.answer gate = .error (.valueError "recovery clock moved backwards")) :
    o.answer gate = .ok (decide (gate.minConsecutiveSuccesses ≤ gate.consecutiveSuccesses + 1 ∧
        gate.minHealthySeconds ≤ o.now - gate.firstGreenAt.getD o.now)) ∧
      (o.next gate).firstGreenAt = some (gate.firstGreenAt.getD o.now) ∧
      (o.next gate).consecutiveSuccesses = gate.consecutiveSuccesses + 1 := by
  rcases observe_cases gate o with ⟨-, herror, -⟩ | ⟨-, hred, -, -⟩ | ⟨-, -, hanswer, hnext⟩
  · exact absurd herror hclock
  · rw [hgreen] at hred
    exact nomatch hred
  · rw [hnext]
    exact ⟨hanswer, rfl, rfl⟩

/-- What a call leaves of the bounds. -/
theorem next_bounds : (o.next gate).minHealthySeconds = gate.minHealthySeconds ∧
    (o.next gate).minConsecutiveSuccesses = gate.minConsecutiveSuccesses := by
  rcases observe_cases gate o with ⟨-, -, hnext⟩ | ⟨-, -, -, hnext⟩ | ⟨-, -, -, hnext⟩ <;>
    rw [hnext] <;> exact ⟨rfl, rfl⟩

/-- After an error nothing is left, and otherwise the time has been seen. -/
theorem lastSeenAt_next :
    (o.next gate).lastSeenAt = if gate.backwards o.now then none else some o.now := by
  rcases observe_cases gate o with ⟨hclock, -, hnext⟩ | ⟨hclock, -, -, hnext⟩ |
    ⟨hclock, -, -, hnext⟩ <;> rw [hnext, hclock] <;> rfl

/-! ## 4. All calls -/

/-- The gate holds what the row at the end of the calls says. -/
structure Holds (minHealthySeconds : T) (minConsecutiveSuccesses : ℤ)
    (gate : RecoveryHysteresisGate T) (streak : List (Observation T)) : Prop where
  seconds : gate.minHealthySeconds = minHealthySeconds
  successes : gate.minConsecutiveSuccesses = minConsecutiveSuccesses
  first : gate.firstGreenAt = streak.head?.map Observation.now
  count : gate.consecutiveSuccesses = streak.length

variable {seconds : T} {successes : ℤ}

theorem observed_bounds : (observed gate calls).minHealthySeconds = gate.minHealthySeconds ∧
    (observed gate calls).minConsecutiveSuccesses = gate.minConsecutiveSuccesses := by
  induction calls using List.reverseRecOn with
  | nil => exact ⟨rfl, rfl⟩
  | append_singleton calls o ih =>
    rw [observed_concat]
    exact ⟨next_bounds.1.trans ih.1, next_bounds.2.trans ih.2⟩

theorem Holds.interrupted (hbounds : gate.minHealthySeconds = seconds ∧
      gate.minConsecutiveSuccesses = successes)
    (ho : ¬ o.checks.allGreen ∨
      o.answer gate = .error (.valueError "recovery clock moved backwards")) :
    Holds seconds successes (o.next gate) [] := by
  obtain ⟨-, hfirst, hcount⟩ := observe_interrupted ho
  exact ⟨next_bounds.1.trans hbounds.1, next_bounds.2.trans hbounds.2, hfirst, hcount⟩

theorem Holds.green (h : Holds seconds successes gate streak) (hgreen : o.checks.allGreen)
    (hclock : ¬ o.answer gate = .error (.valueError "recovery clock moved backwards")) :
    Holds seconds successes (o.next gate) (streak ++ [o]) := by
  obtain ⟨-, hfirst, hcount⟩ := observe_green hgreen hclock
  refine ⟨next_bounds.1.trans h.seconds, next_bounds.2.trans h.successes, ?_, ?_⟩
  · rw [hfirst, h.first]
    cases streak <;> rfl
  · rw [hcount, h.count, List.length_append]
    rfl

/-- **The row is what the gate holds**, after all calls. -/
theorem Streak.holds (h : Streak (fresh seconds successes) calls streak) :
    Holds seconds successes (observed (fresh seconds successes) calls) streak := by
  induction h with
  | start => exact ⟨rfl, rfl, rfl, rfl⟩
  | interrupted ho =>
    rw [observed_concat]
    exact .interrupted observed_bounds ho
  | green _ hgreen hclock ih =>
    rw [observed_concat]
    exact ih.green hgreen hclock

theorem exists_streak (gate : RecoveryHysteresisGate T) (calls : List (Observation T)) :
    ∃ streak, Streak gate calls streak := by
  induction calls using List.reverseRecOn with
  | nil => exact ⟨[], .start⟩
  | append_singleton calls o ih =>
    obtain ⟨streak, hstreak⟩ := ih
    by_cases ho : ¬ o.checks.allGreen ∨ Raises gate calls o
    · exact ⟨[], .interrupted ho⟩
    · obtain ⟨hgreen, hclock⟩ := not_or.mp ho
      exact ⟨streak ++ [o], .green hstreak (not_not.mp hgreen) hclock⟩

/-- A row that is not empty ends with the last call. -/
theorem Streak.last {first : Observation T} {rest : List (Observation T)}
    (h : Streak gate (calls ++ [o]) (first :: rest)) :
    ∃ streak, Streak gate calls streak ∧ o.checks.allGreen ∧ ¬ Raises gate calls o ∧
      streak ++ [o] = first :: rest := by
  generalize hall : calls ++ [o] = all at h
  generalize hrow : first :: rest = row at h
  cases h with
  | start => exact nomatch hrow
  | interrupted => exact nomatch hrow
  | green hstreak hgreen hclock =>
    obtain ⟨rfl, ho⟩ := List.append_inj' hall rfl
    obtain rfl := (List.cons.inj ho).1
    exact ⟨_, hstreak, hgreen, hclock, rfl⟩

/-- The answer to a call that makes the row longer. -/
theorem Streak.answer (h : Streak (fresh seconds successes) calls streak)
    (hgreen : o.checks.allGreen) (hclock : ¬ Raises (fresh seconds successes) calls o)
    {first : Observation T} {rest : List (Observation T)} (hrow : streak ++ [o] = first :: rest) :
    o.answer (observed (fresh seconds successes) calls) =
      .ok (decide (successes ≤ (first :: rest).length ∧ seconds ≤ o.now - first.now)) := by
  obtain ⟨hseconds, hsuccesses, hfirst, hcount⟩ := h.holds
  have hgetD : (streak.head?.map Observation.now).getD o.now = first.now := by
    cases streak with
    | nil => exact congrArg Observation.now (List.cons.inj hrow).1
    | cons first' streak => exact congrArg Observation.now (List.cons.inj hrow).1
  have hlength : (streak.length : ℤ) + 1 = (first :: rest).length := by
    rw [← hrow, List.length_append]
    rfl
  obtain ⟨hanswer, -, -⟩ := observe_green hgreen hclock
  rw [hanswer, hseconds, hsuccesses, hfirst, hcount, hgetD, hlength]

/-- After an error the gate is as it was made. -/
theorem Raises.forgotten (h : Raises (fresh seconds successes) calls o) :
    observed (fresh seconds successes) (calls ++ [o]) = fresh seconds successes := by
  have hbounds : (observed (fresh seconds successes) calls).minHealthySeconds = seconds ∧
      (observed (fresh seconds successes) calls).minConsecutiveSuccesses = successes :=
    observed_bounds
  rw [observed_concat]
  rcases observe_cases (observed (fresh seconds successes) calls) o with ⟨-, -, hnext⟩ |
    ⟨hclock, -⟩ | ⟨hclock, -⟩
  · rw [hnext]
    unfold RecoveryHysteresisGate.reset
    rw [hbounds.1, hbounds.2]
    rfl
  all_goals
    rw [Raises, answer_eq_error_iff, hclock] at h
    exact nomatch h

theorem not_raises_nil : ¬ Raises (fresh seconds successes) [] o := by
  rw [Raises, answer_eq_error_iff]
  exact nofun

/-- **A call raises** if it is earlier than its predecessor, and that did not raise. -/
theorem raises_concat_iff {p : Observation T} :
    Raises gate (calls ++ [p]) o ↔ ¬ Raises gate calls p ∧ o.now < p.now := by
  rw [Raises, answer_eq_error_iff, Raises, answer_eq_error_iff, observed_concat,
    RecoveryHysteresisGate.backwards, lastSeenAt_next]
  cases (observed gate calls).backwards p.now with
  | true => simp
  | false => simp

/-- **A call is answered with `True`** if the row that it ends has enough calls, and time. -/
theorem answer_eq_true_iff : o.answer (observed (fresh seconds successes) calls) = .ok true ↔
    ∃ first rest, Streak (fresh seconds successes) (calls ++ [o]) (first :: rest) ∧
      successes ≤ (first :: rest).length ∧ seconds ≤ o.now - first.now := by
  constructor
  · intro hanswer
    obtain ⟨streak, hstreak⟩ := exists_streak (fresh seconds successes) calls
    by_cases ho : ¬ o.checks.allGreen ∨ Raises (fresh seconds successes) calls o
    · exact absurd hanswer (observe_interrupted ho).1
    · obtain ⟨hgreen, hclock⟩ := not_or.mp ho
      rw [not_not] at hgreen
      obtain ⟨first, rest, hrow⟩ : ∃ first rest, streak ++ [o] = first :: rest :=
        List.exists_cons_of_ne_nil (List.append_ne_nil_of_right_ne_nil _ (List.cons_ne_nil _ _))
      rw [hstreak.answer hgreen hclock hrow] at hanswer
      exact ⟨first, rest, hrow ▸ .green hstreak hgreen hclock,
        of_decide_eq_true (Except.ok.inj hanswer)⟩
  · rintro ⟨first, rest, hstreak, henough⟩
    obtain ⟨streak, hstreak, hgreen, hclock, hrow⟩ := hstreak.last
    rw [hstreak.answer hgreen hclock hrow, decide_eq_true henough]

/-- **The gate, over all calls.** -/
theorem observe_characterised (seconds : T) (successes : ℤ) (calls : List (Observation T))
    (o : Observation T) :
    ¬ Raises (fresh seconds successes) [] o ∧
      (∀ p, Raises (fresh seconds successes) (calls ++ [p]) o ↔
        ¬ Raises (fresh seconds successes) calls p ∧ o.now < p.now) ∧
      (Raises (fresh seconds successes) calls o →
        observed (fresh seconds successes) (calls ++ [o]) = fresh seconds successes) ∧
      (o.answer (observed (fresh seconds successes) calls) = .ok true ↔
        ∃ first rest, Streak (fresh seconds successes) (calls ++ [o]) (first :: rest) ∧
          successes ≤ (first :: rest).length ∧ seconds ≤ o.now - first.now) :=
  ⟨not_raises_nil, fun _ => raises_concat_iff, Raises.forgotten, answer_eq_true_iff⟩

end Calls

/-- All checks are green. -/
def green : RecoveryChecks := ⟨true, true, true, true, true, true, true, true, true⟩

/-- The third call is earlier than the second, which raises, and is answered. -/
theorem regression_not_refused :
    ¬ ∀ (seconds : ℚ) (successes : ℤ) (calls : List (Observation ℚ)) (p o : Observation ℚ),
      o.now < p.now → Raises (fresh seconds successes) (calls ++ [p]) o := by
  intro h
  have hraises := h 0 1 [⟨green, 10⟩] ⟨green, 5⟩ ⟨green, 3⟩ (by decide)
  rw [raises_concat_iff] at hraises
  have hfirst : Raises (fresh (0 : ℚ) 1) ([] ++ [⟨green, 10⟩]) ⟨green, 5⟩ :=
    raises_concat_iff.mpr ⟨not_raises_nil, by decide⟩
  exact hraises.1 hfirst

end Kripto.Risk.Hysteresis
