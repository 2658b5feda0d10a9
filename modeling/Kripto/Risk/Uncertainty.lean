/-
# What a run can do to the permitted risk

Apart from an approved `recover`, no method of the machine leaves a state that allows new risk.
So no run without one re-enables it, whichever coordinators take part:

* `new_risk_only_through_recover`: new risk is re-enabled by an approved `recover` only, and
  `evaluate` returns with the machine in `ACTIVE` exactly if nothing drifted, every check is
  green and a human approved.
* `uncertainty_adds_no_risk`: a run without an approved `recover` never adds `OPEN`, and outside
  the severe states it adds nothing except `RECOVER`.

A restricting method jumps to its own state from wherever the machine is.  So it can add
`RECOVER`, and from a severe state `REDUCE` (`permitted_grows`).
-/
import Kripto.Effect.Play
import Kripto.Risk.Recovery
import Mathlib.Algebra.Order.Ring.Rat

namespace Kripto.Risk

open Execution Effect

variable {V : Type}

/-! ## 1. Single operations -/

/-- An operation that is a `recover` with human approval and green checks. -/
def Op.Approved (o : Op) : Prop := ∃ c : RiskMachine.Method, o = .method c ∧ c.Approved

/-- **What one operation can do to the machine.** -/
theorem handler_cases {o : Op} {w w' : World} {r : (riskSig V).Ans o} (h : handler o w r w') :
    o.Approved ∨ w'.machine.state = w.machine.state ∨ w'.machine.allowNewRisk = false := by
  rcases handler_machine h with hsame | ⟨c, rfl, hrun⟩
  · exact .inr (.inl (by rw [hsame]))
  · by_cases hc : c.Approved
    · exact .inl ⟨c, rfl, hc⟩
    · exact .inr (.inr (by rw [hrun]; exact allowNewRisk_run hc))

theorem allowNewRisk_congr {m m' : RiskMachine} (h : m'.state = m.state) :
    m'.allowNewRisk = m.allowNewRisk := by
  simp only [RiskMachine.allowNewRisk, h]

/-- Without an approved recovery, new risk is allowed afterwards only if it was before. -/
theorem handler_keeps_blocked {o : Op} {w w' : World} {r : (riskSig V).Ans o}
    (ho : ¬o.Approved) (h : handler o w r w') (hw : w.machine.allowNewRisk = false) :
    w'.machine.allowNewRisk = false := by
  rcases handler_cases h with happroved | hsame | hblocked
  · exact absurd happroved ho
  · rwa [allowNewRisk_congr hsame]
  · exact hblocked

/-! ## 2. `evaluate` -/

section Evaluate

open RestartRecoveryCoordinator

@[simp] theorem wp_method {c : RiskMachine.Method} {Q : Except Exc Unit → World → Prop}
    {w : World} : wp handler .free () (perform (V := V) (.method c)) Q w ↔
      Q (c.run w.machine).1 { w with machine := (c.run w.machine).2 } := by
  refine wp_free_perform.trans ⟨fun h => h _ _ ⟨rfl, rfl⟩, ?_⟩
  rintro h r w' ⟨rfl, rfl⟩
  exact h

@[simp] theorem wp_riskState {Q : Except Exc RiskState → World → Prop} {w : World} :
    wp handler .free () (perform (V := V) .riskState) Q w ↔ Q (.ok w.machine.state) w := by
  refine wp_free_perform.trans ⟨fun h => h _ _ ⟨rfl, rfl⟩, ?_⟩
  rintro h r w' ⟨rfl, rfl⟩
  exact h

theorem wp_setRestartEvidence {k : ℕ} {evidence : RestartRecoveryEvidence}
    {Q : Except Exc Unit → World → Prop} {w : World}
    (h : ∀ w' : World, w'.machine = w.machine → Q (.ok ()) w') :
    wp handler .free () (perform (V := V) (.setRestartEvidence k evidence)) Q w := by
  refine wp_free_perform.mpr ?_
  rintro r w' ⟨rfl, rfl⟩
  exact h _ rfl

variable [PySet] [BEq V] [Zero V]

/-- What an evaluation needs for `ACTIVE`. -/
def EvaluateArgs.Ready (a : EvaluateArgs V) : Prop :=
  (reconcile a.loc a.exchange).drift = [] ∧ a.checks.allGreen = true ∧ a.humanApproved = true

/-- Without drift the effective checks are the ones supplied. -/
theorem evidenceOf_checks {a : EvaluateArgs V} (h : (reconcile a.loc a.exchange).drift = []) :
    (evidenceOf a).checks = a.checks := by
  simp [evidenceOf, h, effectiveChecks_nil]

theorem wp_evaluate (k : ℕ) (a : EvaluateArgs V) (w : World) :
    wp handler .free () (evaluate k a)
      (fun r w' => r.isOk = true → (w'.machine.state = .ACTIVE ↔ a.Ready)) w := by
  refine wp_bind.mpr (wp_riskState.mpr ?_)
  rw [onOk_ok]
  split
  · exact fun h => absurd h Bool.false_ne_true
  refine wp_bind.mpr (wp_setRestartEvidence fun w₁ hw₁ => ?_)
  rw [onOk_ok]
  by_cases hdrift : (evidenceOf a).reconciliation.drift = []
  · rw [if_neg (not_not.mpr hdrift), evidenceOf_checks hdrift]
    split_ifs with hgates
    -- no drift, but the gates are not all green
    · refine wp_bind.mpr (wp_method.mpr fun _ => ?_)
      refine iff_of_false (by simp [RiskMachine.Method.run, RiskMachine.recoveryPending,
        RiskMachine.transition]) ?_
      rintro ⟨-, hgreen, happroved⟩
      simp [hgreen, happroved] at hgates
    -- the machine is staged, unless it already is, and then recovered
    have hready : a.Ready := by
      refine ⟨hdrift, ?_⟩
      cases ha : a.humanApproved <;> cases hg : a.checks.allGreen <;> simp_all
    have hrecover : ∀ w₂ : World, w₂.machine.state = .RECOVERY_PENDING →
        wp handler .free () (perform (V := V) (.method (.recover
            { humanApproved := true, checks := some a.checks, target := some .ACTIVE })) >>=
          fun _ => pure (evidenceOf a))
          (fun r w' => r.isOk = true → (w'.machine.state = .ACTIVE ↔ a.Ready)) w₂ := by
      intro w₂ hw₂
      have hrun := recover_of_pending (m := w₂.machine)
        (a := { humanApproved := true, checks := some a.checks, target := some .ACTIVE })
        hw₂ rfl hready.2.1
      refine wp_bind.mpr (wp_method.mpr ?_)
      rw [RiskMachine.Method.run, hrun]
      exact fun _ => iff_of_true rfl hready
    refine wp_bind.mpr (wp_riskState.mpr ?_)
    rw [onOk_ok]
    by_cases hpending : w₁.machine.state = .RECOVERY_PENDING
    · rw [if_neg (not_not.mpr hpending)]
      exact hrecover w₁ hpending
    · rw [if_pos hpending]
      exact wp_bind.mpr (wp_method.mpr (hrecover _ rfl))
  -- drift
  · rw [if_pos hdrift]
    refine wp_bind.mpr (wp_method.mpr fun _ => ?_)
    exact iff_of_false (by simp [RiskMachine.Method.run, RiskMachine.manualReview,
      RiskMachine.transition]) fun h => hdrift h.1

end Evaluate

/-! ## 3. New risk -/

section Permitted

variable [PySet] [BEq V] [Zero V]

/-- The runs without an approved recovery. -/
def callsUnapproved (V : Type) [BEq V] [Zero V] :
    Session.System (riskSig V) World Unit (Call V) Empty :=
  (calls V).meeting fun _ o _ _ => ¬o.Approved

theorem keeps_blocked {w w' : World} {tr : List (Event (riskSig V) Unit (Call V) Empty)}
    (h : Session (callsUnapproved V) w tr w') (hw : w.machine.allowNewRisk = false) :
    w'.machine.allowNewRisk = false := by
  refine h.keeps (P := fun w => w.machine.allowNewRisk = false) ?_ (fun _ _ hw => hw)
    (fun l => l.elim) hw
  exact fun _ _ _ _ _ hw hop => handler_keeps_blocked hop.2 hop.1 hw

/-- **New risk is re-enabled through an approved recovery only.** -/
theorem new_risk_only_through_recover {w₀ : World} (hw₀ : w₀.machine.allowNewRisk = false) :
    (∀ o w w', Session.Performs (calls V) w₀ o w w' → w.machine.allowNewRisk = false →
      w'.machine.allowNewRisk = true → o.Approved) ∧
    (∀ tr w, Session (callsUnapproved V) w₀ tr w → w.machine.allowNewRisk = false) ∧
    (∀ tr w k (a : EvaluateArgs V) evidence w', Session (calls V) w₀ tr w →
      Runs handler (RestartRecoveryCoordinator.evaluate k a) w (.ok evidence) w' →
      (w'.machine.state = .ACTIVE ↔ (reconcile a.loc a.exchange).drift = [] ∧
        a.checks.allGreen = true ∧ a.humanApproved = true)) := by
  refine ⟨?_, ?_, ?_⟩
  · rintro o w w' ⟨_, _, _, _, _, _, _, hop⟩ hw hw'
    by_contra ho
    have hblocked := handler_keeps_blocked ho hop hw
    rw [hw'] at hblocked
    exact nomatch hblocked
  · exact fun tr w h => keeps_blocked h hw₀
  · intro tr w k a evidence w' _ h
    exact h.of_wp (wp_evaluate k a w) rfl

/-! ## 4. What else is permitted -/

/-- `w'` permits nothing that `w` does not, except what a run may add: `RECOVER`, and from a
severe state what is no new risk. -/
structure NoMoreRisk (w w' : World) : Prop where
  opens : RiskAction.OPEN ∈ w'.machine.allowedActions → RiskAction.OPEN ∈ w.machine.allowedActions
  rest : ¬w.machine.state.Severe ∨ w'.machine.state.Severe → ∀ x ∈ w'.machine.allowedActions,
    x ≠ .RECOVER → x ∈ w.machine.allowedActions

omit [PySet] in
/-- Only `OPEN` tells the states outside the severe ones apart, and a severe state permits the
least. -/
theorem NoMoreRisk.of_blocked {w w' : World}
    (h : w'.machine.allowNewRisk = true → w.machine.allowNewRisk = true) : NoMoreRisk w w' where
  opens hopen := open_mem_iff.mpr (h (open_mem_iff.mp hopen))
  rest hsevere x hx hrecover := by
    cases x with
    | OPEN => exact open_mem_iff.mpr (h (open_mem_iff.mp hx))
    | REDUCE => exact reduce_mem_iff.mpr (hsevere.resolve_right (reduce_mem_iff.mp hx))
    | CANCEL => exact cancel_mem
    | CLOSE => exact close_mem
    | RECOVER => exact absurd rfl hrecover

/-- **Without an approved recovery nothing permits more risk**, neither a single operation nor a
whole run. -/
theorem uncertainty_adds_no_risk :
    (∀ w₀ o w w', Session.Performs (calls V) w₀ o w w' → ¬o.Approved → NoMoreRisk w w') ∧
    (∀ w tr w', Session (callsUnapproved V) w tr w' → NoMoreRisk w w') := by
  constructor
  · rintro w₀ o w w' ⟨_, _, _, _, _, _, _, hop⟩ ho
    refine .of_blocked fun hw' => ?_
    by_contra hw
    have hblocked := handler_keeps_blocked ho hop (Bool.eq_false_iff.mpr hw)
    rw [hw'] at hblocked
    exact nomatch hblocked
  · intro w tr w' h
    refine .of_blocked fun hw' => ?_
    by_contra hw
    have hblocked := keeps_blocked h (Bool.eq_false_iff.mpr hw)
    rw [hw'] at hblocked
    exact nomatch hblocked

end Permitted

/-! ## 5. Runs that add something -/

section Runs

/-- A set that is iterated in the order of its insertions. -/
@[reducible] def insertionOrder : PySet := ⟨id, Iff.rfl⟩

attribute [local instance] insertionOrder

/-- An exchange that knows of nothing. -/
def emptyExchange : Script (riskSig ℚ) World
  | .method c, w => ((c.run w.machine).1, { w with machine := (c.run w.machine).2 })
  | .riskState, w => (.ok w.machine.state, w)
  | .setRestartEvidence k evidence, w =>
      (.ok (), { w with restartEvidence := Function.update w.restartEvidence k (some evidence) })
  | .authExpired k, w => (.ok (w.stream k).authExpired, w)
  | .setAuthExpired k b, w => (.ok (), w.setStream k { w.stream k with authExpired := b })
  | .setDisconnected k b, w => (.ok (), w.setStream k { w.stream k with disconnected := b })
  | .setStreamEvidence k evidence, w =>
      (.ok (), w.setStream k { w.stream k with lastEvidence := some evidence })
  | .localSnapshotProvider _, w => (.ok ⟨[], [], []⟩, w)
  | .getBalance, w => (.ok [], w)
  | .getPositions, w => (.ok (.dict []), w)
  | .getOpenOrders, w => (.ok [], w)

theorem emptyExchange_picks : emptyExchange.Picks handler := by
  intro o w
  cases o with
  | localSnapshotProvider | getBalance | getPositions | getOpenOrders => rfl
  | _ => exact ⟨rfl, rfl⟩

/-- The coordinators and a machine in `state`. -/
def World.starting (state : RiskState) : World where
  machine := { state := state }
  restartEvidence := fun _ => none
  stream := fun _ => {}

/-- Nothing drifted, every check is green, and a human approved. -/
def readyArgs : EvaluateArgs ℚ where
  loc := ⟨[], [], []⟩
  exchange := ⟨[], [], []⟩
  checks := ⟨true, true, true, true, true, true, true, true, true⟩
  humanApproved := true

/-- A restart that ends in `ACTIVE`. -/
theorem restart_reaches_active : ∃ evidence w',
    Runs handler (RestartRecoveryCoordinator.evaluate 0 readyArgs) (World.starting .STARTING)
      (.ok evidence) w' ∧ w'.machine.state = .ACTIVE := by
  have hrun : Runs handler (RestartRecoveryCoordinator.evaluate 0 readyArgs)
      (World.starting .STARTING) (.ok (RestartRecoveryCoordinator.evidenceOf readyArgs)) _ :=
    runs_play emptyExchange_picks _ _
  exact ⟨_, _, hrun, ((new_risk_only_through_recover (V := ℚ) rfl).2.2 [] _ _ _ _ _ (.nil _)
    hrun).mpr ⟨rfl, rfl, rfl⟩⟩

/-- The disconnect of a halted machine, and the halt of an active one. -/
theorem permitted_grows :
    (∃ w', Session (callsUnapproved ℚ) (World.starting .HALTED)
        [.done (.onDisconnect 0 "PRIVATE_STREAM_DISCONNECTED") (.ok ())] w' ∧
      RiskAction.REDUCE ∈ w'.machine.allowedActions ∧
      RiskAction.REDUCE ∉ (World.starting .HALTED).machine.allowedActions) ∧
    (∃ w', Session (callsUnapproved ℚ) (World.starting .ACTIVE)
        [.done (.machine (.halt "kill switch")) (.ok ())] w' ∧
      RiskAction.RECOVER ∈ w'.machine.allowedActions ∧
      RiskAction.RECOVER ∉ (World.starting .ACTIVE).machine.allowedActions) := by
  constructor
  · refine ⟨_, .done _ _ (.step ⟨⟨rfl, rfl⟩, ?_⟩ (.step ⟨⟨rfl, rfl⟩, ?_⟩ (.refl _ _))) (.nil _), ?_⟩
    · rintro ⟨c, h, -⟩
      exact nomatch h
    · rintro ⟨c, ⟨⟩, a, ⟨⟩, -⟩
    · decide
  · refine ⟨_, .done _ _ (.step ⟨⟨rfl, rfl⟩, ?_⟩ (.refl _ _)) (.nil _), ?_⟩
    · rintro ⟨c, ⟨⟩, a, ⟨⟩, -⟩
    · decide

end Runs

end Kripto.Risk
