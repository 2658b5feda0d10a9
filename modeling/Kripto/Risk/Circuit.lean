/-
# The circuit breaker

`risk/circuit.py`: `evaluate` takes some checks by name and sets the state by what these say.  It
keeps nothing of the calls before, so that a check that has failed is forgotten by the next call
that leaves it out, although uncertainty must not increase what is permitted
(`RISK_STATE_MACHINE.md`).

* `failures_stay_in_force_iff`: the runs in which a failure stays in force, after every call;
* `failure_forgotten`: a run in which one does not.
-/
import Kripto.Risk.State
import Mathlib.Data.List.Induction

namespace Kripto.Risk.Circuit

/-! ## 1. `risk/circuit.py` -/

/-- What a call is given: named values, each name once. -/
structure Checks where
  keys : List String
  value : String → Bool
  nodup : keys.Nodup

/-- What is said of a check, if anything is. -/
def Checks.get (checks : Checks) (k : String) : Option Bool :=
  if k ∈ checks.keys then some (checks.value k) else none

structure CircuitBreaker where
  riskState : RiskState := .NORMAL
  reasons : List String := []
  deriving DecidableEq

def fatal : List String :=
  ["database_ok", "redis_ok", "exchange_ok", "clock_ok", "private_stream_ok", "data_fresh",
    "balance_consistent", "protective_orders_ok", "duplicate_order_ok", "spread_ok",
    "volatility_ok", "daily_loss_ok", "drawdown_ok", "order_rejection_ok"]

def Checks.failed (checks : Checks) : List String := checks.keys.filter fun k => !checks.value k

def CircuitBreaker.evaluate (_self : CircuitBreaker) (checks : Checks) :
    RiskState × CircuitBreaker :=
  let failed := checks.failed
  let riskState : RiskState :=
    if failed.any (· ∈ fatal) then .HALTED
    else if failed ≠ [] then .RESTRICTED
    else .NORMAL
  (riskState, { riskState, reasons := failed })

/-! ## 2. Runs -/

def evaluated (calls : List Checks) : CircuitBreaker :=
  calls.foldl (fun self checks => (self.evaluate checks).2) {}

/-- What was last said of a check. -/
def latest (calls : List Checks) (k : String) : Option Bool :=
  calls.foldl (fun last checks => (checks.get k).or last) none

/-- After each call that says that the check fails there is one that says that it passes. -/
def Cleared (calls : List Checks) (k : String) : Prop :=
  ∀ before checks after, calls = before ++ checks :: after → checks.get k = some false →
    ∃ checks' ∈ after, checks'.get k = some true

/-- **A failure stays in force** until the check passes. -/
structure InForce (calls : List Checks) : Prop where
  normal : (evaluated calls).riskState = .NORMAL → ∀ k, Cleared calls k
  halted : ∀ k ∈ fatal, latest calls k = some false → (evaluated calls).riskState = .HALTED

/-- The call fails a check of this kind, or names all of this kind that have failed. -/
def Faces (kind : String → Prop) (calls : List Checks) (checks : Checks) : Prop :=
  (∃ k, kind k ∧ checks.get k = some false) ∨
    ∀ k, kind k → latest calls k = some false → k ∈ checks.keys

/-! ## 3. One call -/

variable {calls : List Checks} {checks : Checks} {k : String}

theorem get_eq_some_iff {v : Bool} :
    checks.get k = some v ↔ k ∈ checks.keys ∧ checks.value k = v := by
  rw [Checks.get]
  split_ifs with hk
  · rw [Option.some.injEq, and_iff_right hk]
  · exact iff_of_false nofun fun h => hk h.1

theorem mem_failed_iff : k ∈ checks.failed ↔ checks.get k = some false := by
  rw [Checks.failed, List.mem_filter, get_eq_some_iff, Bool.not_eq_true']

theorem latest_concat : latest (calls ++ [checks]) k = (checks.get k).or (latest calls k) := by
  rw [latest, List.foldl_append]
  rfl

theorem evaluated_concat :
    evaluated (calls ++ [checks]) = ((evaluated calls).evaluate checks).2 := by
  rw [evaluated, List.foldl_append]
  rfl

theorem normal_concat_iff :
    (evaluated (calls ++ [checks])).riskState = .NORMAL ↔ ∀ k, checks.get k ≠ some false := by
  have hfailed : checks.failed = [] ↔ ∀ k, checks.get k ≠ some false := by
    rw [List.eq_nil_iff_forall_not_mem]
    exact forall_congr' fun k => not_congr mem_failed_iff
  rw [← hfailed, evaluated_concat, CircuitBreaker.evaluate]
  dsimp only
  split_ifs with hfatal hsome
  · refine iff_of_false nofun fun hnil => ?_
    rw [hnil] at hfatal
    exact nomatch hfatal
  · exact iff_of_false nofun hsome
  · exact iff_of_true rfl (not_not.mp hsome)

theorem halted_concat_iff : (evaluated (calls ++ [checks])).riskState = .HALTED ↔
    ∃ k, k ∈ fatal ∧ checks.get k = some false := by
  have hfatal : checks.failed.any (· ∈ fatal) = true ↔
      ∃ k, k ∈ fatal ∧ checks.get k = some false := by
    simp only [List.any_eq_true, decide_eq_true_eq, mem_failed_iff]
    exact exists_congr fun k => and_comm
  rw [← hfatal, evaluated_concat, CircuitBreaker.evaluate]
  dsimp only
  split_ifs with hany
  · exact iff_of_true rfl hany
  · exact iff_of_false nofun hany
  · exact iff_of_false nofun hany

theorem latest_concat_iff : latest (calls ++ [checks]) k ≠ some false ↔
    checks.get k = some true ∨ checks.get k = none ∧ latest calls k ≠ some false := by
  rw [latest_concat]
  cases checks.get k with
  | none => simp
  | some v => cases v <;> simp

theorem cleared_concat_iff : Cleared (calls ++ [checks]) k ↔
    checks.get k = some true ∨ checks.get k = none ∧ Cleared calls k := by
  constructor
  · intro h
    rcases hget : checks.get k with - | v
    · refine .inr ⟨rfl, fun before checks' after hcalls hfail => ?_⟩
      obtain ⟨c, hc, hpass⟩ := h before checks' (after ++ [checks])
        (by rw [hcalls, List.append_assoc, List.cons_append]) hfail
      rcases List.mem_append.mp hc with hc | hc
      · exact ⟨c, hc, hpass⟩
      · rw [List.mem_singleton.mp hc, hget] at hpass
        exact nomatch hpass
    · refine .inl (congrArg some (Bool.of_not_eq_false ?_))
      rintro rfl
      obtain ⟨c, hc, -⟩ := h calls checks [] rfl hget
      exact nomatch hc
  · intro h before checks' after hcalls hfail
    rcases List.eq_nil_or_concat after with rfl | ⟨after, last, rfl⟩
    · obtain ⟨-, hlast⟩ := List.append_inj' hcalls rfl
      obtain rfl := (List.cons.inj hlast).1
      rw [hfail] at h
      rcases h with h | ⟨h, -⟩ <;> exact nomatch h
    · rw [List.concat_eq_append, ← List.cons_append, ← List.append_assoc] at hcalls
      obtain ⟨hbefore, hlast⟩ := List.append_inj' hcalls rfl
      obtain rfl := (List.cons.inj hlast).1
      rw [List.concat_eq_append]
      rcases h with hpass | ⟨-, h⟩
      · exact ⟨checks, List.mem_append_right _ (List.mem_singleton_self _), hpass⟩
      · obtain ⟨c, hc, hpass⟩ := h before checks' after hbefore hfail
        exact ⟨c, List.mem_append_left _ hc, hpass⟩

/-- What has failed is what was last said to fail. -/
theorem cleared_iff : Cleared calls k ↔ latest calls k ≠ some false := by
  induction calls using List.reverseRecOn with
  | nil =>
    refine iff_of_true (fun before checks after hcalls => ?_) nofun
    exact absurd hcalls.symm (List.append_ne_nil_of_right_ne_nil _ (List.cons_ne_nil _ _))
  | append_singleton calls checks ih => rw [latest_concat_iff, cleared_concat_iff, ih]

/-! ## 4. Runs in which nothing is forgotten -/

theorem inForce_nil : InForce [] where
  normal _ _ := cleared_iff.mpr nofun
  halted _ _ h := nomatch h

/-- A call that names all that has failed, and fails nothing of it, has it pass. -/
theorem latest_of_faces {kind : String → Prop} (h : Faces kind calls checks)
    (hpass : ∀ k, kind k → checks.get k ≠ some false) (hk : kind k) :
    latest (calls ++ [checks]) k ≠ some false := by
  rcases h with ⟨k', hk', hfail⟩ | hall
  · exact absurd hfail (hpass k' hk')
  · rw [latest_concat_iff]
    rcases hget : checks.get k with - | v
    · refine .inr ⟨rfl, fun hfalse => ?_⟩
      rw [Checks.get, if_pos (hall k hk hfalse)] at hget
      exact nomatch hget
    · refine .inl (congrArg some (Bool.of_not_eq_false ?_))
      rintro rfl
      exact hpass k hk hget

/-- What a call does not name is as it was. -/
theorem latest_of_not_mem (hmem : k ∉ checks.keys) :
    latest (calls ++ [checks]) k = latest calls k := by
  rw [latest_concat, Checks.get, if_neg hmem, Option.none_or]

theorem inForce_concat_iff : InForce (calls ++ [checks]) ↔
    Faces (fun _ => True) calls checks ∧ Faces (· ∈ fatal) calls checks := by
  constructor
  · intro h
    refine ⟨?_, ?_⟩
    · refine or_iff_not_imp_left.mpr fun hnone k hk hfalse => by_contra fun hmem => ?_
      have hpass : ∀ k, checks.get k ≠ some false := fun k hfail => hnone ⟨k, trivial, hfail⟩
      have hcleared := cleared_iff.mp (h.normal (normal_concat_iff.mpr hpass) k)
      exact hcleared ((latest_of_not_mem hmem).trans hfalse)
    · refine or_iff_not_imp_left.mpr fun hnone k hk hfalse => by_contra fun hmem => ?_
      have hhalted := h.halted k hk ((latest_of_not_mem hmem).trans hfalse)
      exact hnone (halted_concat_iff.mp hhalted)
  · rintro ⟨hall, hfatal⟩
    refine ⟨fun hnormal k => ?_, fun k hk hfalse => ?_⟩
    · have hpass := normal_concat_iff.mp hnormal
      exact cleared_iff.mpr (latest_of_faces hall (fun k _ => hpass k) trivial)
    · refine halted_concat_iff.mpr (by_contra fun hnone => ?_)
      have hpass : ∀ k, k ∈ fatal → checks.get k ≠ some false := fun k hk hfail =>
        hnone ⟨k, hk, hfail⟩
      exact latest_of_faces hfatal hpass hk hfalse

/-- **A failure stays in force after every call** if and only if each call faces what has failed,
and what has failed of the fatal checks. -/
theorem failures_stay_in_force_iff (calls : List Checks) :
    (∀ past, past <+: calls → InForce past) ↔
      ∀ past checks, past ++ [checks] <+: calls →
        Faces (fun _ => True) past checks ∧ Faces (· ∈ fatal) past checks := by
  constructor
  · exact fun h past checks hpre => inForce_concat_iff.mp (h _ hpre)
  · intro h past hpre
    rcases List.eq_nil_or_concat past with rfl | ⟨past, checks, rfl⟩
    · exact inForce_nil
    · rw [List.concat_eq_append] at hpre ⊢
      exact inForce_concat_iff.mpr (h past checks hpre)

/-- A call that names one check. -/
def one (k : String) (value : Bool) : Checks := ⟨[k], fun _ => value, List.pairwise_singleton _ k⟩

/-- The database has failed, the spread is well, and all is normal again. -/
theorem failure_forgotten : ¬ InForce [one "database_ok" false, one "spread_ok" true] := by
  intro h
  have hcleared := cleared_iff.mp (h.normal rfl "database_ok")
  exact hcleared (by decide)

end Kripto.Risk.Circuit
