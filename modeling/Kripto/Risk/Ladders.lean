/-
# The two ladders to live trading

`strategies/lifecycle.py`: a strategy is promoted from `DRAFT` to `LIVE_APPROVED`.
`risk/live_ramp.py`: live trading is given more of the risk from stage to stage, and less again.
Neither looks back: what has been shown before is known from the rung alone.

* `promoted_climb`: whatever is called, the state a strategy is in has been reached state by state,
  each with its own evidence, and the last with a human approval;
* `stage_climb`: each stage that a ramp is on has been gone up to with acceptable evidence and an
  approval, and the ramp has not been below it since;
* `risk_multiplier_le`: so without these the share of the risk does not grow.

A strategy version manifest is left out.
-/
import Kripto.Effect.Ladder
import Mathlib.Algebra.Order.Ring.Rat
import Mathlib.Data.String.Basic
import Mathlib.Tactic.Linarith

namespace Kripto.Risk.Ladders

open Effect

inductive Exc
  | valueError (msg : String)
  | permissionError (msg : String)
  | keyError
  deriving DecidableEq

/-! ## 1. `strategies/lifecycle.py` -/

inductive State
  | DRAFT | BACKTEST_VALIDATED | OOS_VALIDATED | PAPER_VALIDATED | TESTNET_VALIDATED
  | SHADOW_VALIDATED | LIVE_APPROVED
  deriving DecidableEq

def STATES : List State :=
  [.DRAFT, .BACKTEST_VALIDATED, .OOS_VALIDATED, .PAPER_VALIDATED, .TESTNET_VALIDATED,
    .SHADOW_VALIDATED, .LIVE_APPROVED]

/-- `STATES.index(state)` -/
def State.index (state : State) : ℕ := STATES.idxOf state

/-- `EVIDENCE_BY_TARGET` -/
def evidenceByTarget : State → Option String
  | .DRAFT => none
  | .BACKTEST_VALIDATED => some "backtest"
  | .OOS_VALIDATED => some "oos"
  | .PAPER_VALIDATED => some "paper"
  | .TESTNET_VALIDATED => some "testnet"
  | .SHADOW_VALIDATED => some "live_shadow"
  | .LIVE_APPROVED => some "final_profitability"

structure StrategyLifecycle where
  strategyId : String
  state : State := .DRAFT
  deriving DecidableEq

/-- The arguments of `promote`; `none` is a target that is not in `STATES`, and `evidence` is
`evidence.get(key, False)` as a truth value. -/
structure Promotion where
  target : Option State
  evidence : String → Bool
  humanApproved : Bool := false

def StrategyLifecycle.promote (self : StrategyLifecycle) (a : Promotion) :
    Except Exc State × StrategyLifecycle :=
  match a.target with
  | none => (.error (.valueError "invalid lifecycle target"), self)
  | some target =>
    let cur := self.state.index
    let nxt := target.index
    if nxt ≠ cur + 1 then
      (.error (.permissionError "strategy lifecycle cannot skip validation stages"), self)
    else
      match evidenceByTarget target with
      | none => (.error .keyError, self)
      | some key =>
        if !a.evidence key then
          (.error (.permissionError ("missing " ++ key ++ " evidence")), self)
        else if target = .LIVE_APPROVED ∧ !a.humanApproved then
          (.error (.permissionError "human approval required"), self)
        else (.ok target, { self with state := target })

/-! ## 2. `risk/live_ramp.py` -/

inductive Stage
  | LIVE_STAGE_0 | LIVE_STAGE_1 | LIVE_STAGE_2 | LIVE_STAGE_3
  deriving DecidableEq

def STAGES : List Stage := [.LIVE_STAGE_0, .LIVE_STAGE_1, .LIVE_STAGE_2, .LIVE_STAGE_3]

/-- `STAGES.index(stage)` -/
def Stage.index (stage : Stage) : ℕ := STAGES.idxOf stage

structure LiveRampEvidence where
  reconciliationPass : Bool
  unresolvedCriticalIncidents : ℤ
  protectiveOrderSuccessRate : ℚ
  liveSlippageBps : ℚ
  liveShadowDivergenceBps : ℚ
  netExpectancy : ℚ
  expectancyLowerConfidenceBound : ℚ
  drawdown : ℚ
  effectiveSampleSize : ℚ
  marketConditionsObserved : ℤ
  strategyDegraded : Bool

structure LiveRampPolicy where
  minProtectiveSuccessRate : ℚ := 995 / 1000
  maxLiveSlippageBps : ℚ := 25
  maxLiveShadowDivergenceBps : ℚ := 35
  maxDrawdown : ℚ := 1 / 10
  minEffectiveSampleSize : ℚ := 30
  minMarketConditions : ℤ := 2
  requireNonNegativeExpectancyLcb : Bool := true
  stageMultipliers : List (Stage × ℚ)
  names : stageMultipliers.map Prod.fst = STAGES
  bounded : ∀ v ∈ stageMultipliers.map Prod.snd, 0 < v ∧ v ≤ 1
  monotonic : (stageMultipliers.map Prod.snd).Pairwise (· ≤ ·)

/-- `DEFAULT_STAGE_MULTIPLIERS` -/
def defaultPolicy : LiveRampPolicy where
  stageMultipliers := [(.LIVE_STAGE_0, 10 / 100), (.LIVE_STAGE_1, 25 / 100),
    (.LIVE_STAGE_2, 50 / 100), (.LIVE_STAGE_3, 1)]
  names := rfl
  bounded := by decide +kernel
  monotonic := by decide +kernel

/-- `if c: blockers.append(name)` -/
def blocker (c : Prop) [Decidable c] (name : String) : List String := if c then [name] else []

def LiveRampPolicy.blockers (self : LiveRampPolicy) (evidence : LiveRampEvidence) : List String :=
  let expectancyFloor := if self.requireNonNegativeExpectancyLcb
    then evidence.expectancyLowerConfidenceBound else evidence.netExpectancy
  blocker (evidence.reconciliationPass = false) "RECONCILIATION_NOT_PASS" ++
  blocker (evidence.unresolvedCriticalIncidents ≠ 0) "CRITICAL_INCIDENTS_UNRESOLVED" ++
  blocker (evidence.protectiveOrderSuccessRate < self.minProtectiveSuccessRate)
    "PROTECTIVE_ORDER_SUCCESS_TOO_LOW" ++
  blocker (self.maxLiveSlippageBps < evidence.liveSlippageBps) "LIVE_SLIPPAGE_TOO_HIGH" ++
  blocker (self.maxLiveShadowDivergenceBps < evidence.liveShadowDivergenceBps)
    "LIVE_SHADOW_DIVERGENCE_TOO_HIGH" ++
  blocker (expectancyFloor < 0) "NET_EXPECTANCY_UNACCEPTABLE" ++
  blocker (self.maxDrawdown < evidence.drawdown) "DRAWDOWN_TOO_HIGH" ++
  blocker (evidence.effectiveSampleSize < self.minEffectiveSampleSize)
    "EFFECTIVE_SAMPLE_TOO_SMALL" ++
  blocker (evidence.marketConditionsObserved < self.minMarketConditions)
    "INSUFFICIENT_MARKET_CONDITIONS" ++
  blocker (evidence.strategyDegraded = true) "STRATEGY_DEGRADED"

structure LiveRamp where
  stage : Stage := .LIVE_STAGE_0
  policy : LiveRampPolicy := defaultPolicy

def LiveRamp.riskMultiplier (self : LiveRamp) : ℚ :=
  (self.policy.stageMultipliers.lookup self.stage).getD 0

/-- The names that evidence in the old form has to have, with a true value. -/
def required : List String :=
  ["reconciliation", "critical_incidents_clear", "protective_success", "slippage_bound",
    "shadow_divergence_bound", "expectancy_acceptable", "drawdown_bound", "effective_sample",
    "multiple_conditions", "strategy_healthy"]

/-- Evidence is a `LiveRampEvidence`, or a dictionary of truth values. -/
inductive Evidence
  | record (evidence : LiveRampEvidence)
  | dict (get : String → Bool)

/-- What an increase is refused with because of its evidence. -/
def LiveRampPolicy.refusal (self : LiveRampPolicy) : Evidence → Option String
  | .dict get => if required.all get then none else some "live ramp evidence incomplete"
  | .record evidence =>
    let blockers := self.blockers evidence
    if blockers = [] then none
    else some ("live ramp evidence incomplete: " ++ ",".intercalate blockers)

def LiveRamp.increase (self : LiveRamp) (evidence : Evidence) (humanApproved : Bool := false) :
    Except Exc Stage × LiveRamp :=
  match self.policy.refusal evidence with
  | some msg => (.error (.permissionError msg), self)
  | none =>
    if !humanApproved then
      (.error (.permissionError "automatic live risk increase disabled"), self)
    else
      let i := self.stage.index
      let stage := if i < STAGES.length - 1 then STAGES.getD (i + 1) self.stage else self.stage
      (.ok stage, { self with stage })

def LiveRamp.decrease (self : LiveRamp) : Stage × LiveRamp :=
  let stage := STAGES.getD (self.stage.index - 1) self.stage
  (stage, { self with stage })

/-- A call of a ramp. -/
inductive Call
  | increase (evidence : Evidence) (humanApproved : Bool)
  | decrease

def Call.run (ramp : LiveRamp) : Call → LiveRamp
  | .increase evidence humanApproved => (ramp.increase evidence humanApproved).2
  | .decrease => ramp.decrease.2

/-! ## 3. Promotions -/

section Promotions

variable {self : StrategyLifecycle} {a : Promotion}

/-- What a promotion needs: the next state, its evidence, and an approval if it is the last. -/
def Promotes (self : StrategyLifecycle) (a : Promotion) : Prop :=
  ∃ target key, a.target = some target ∧ target.index = self.state.index + 1 ∧
    evidenceByTarget target = some key ∧ a.evidence key = true ∧
    (target = .LIVE_APPROVED → a.humanApproved = true)

/-- **What a promotion can do.** -/
theorem promote_cases (self : StrategyLifecycle) (a : Promotion) :
    (self.promote a).2 = self ∨
      Promotes self a ∧ (self.promote a).2.state.index = self.state.index + 1 := by
  cases htarget : a.target with
  | none =>
    left
    simp only [StrategyLifecycle.promote, htarget]
  | some target =>
    by_cases hnext : target.index = self.state.index + 1
    · cases hkey : evidenceByTarget target with
      | none =>
        left
        simp only [StrategyLifecycle.promote, htarget, hnext, hkey, ne_eq, not_true, if_false]
      | some key =>
        simp only [StrategyLifecycle.promote, htarget, hnext, hkey, ne_eq, not_true, if_false]
        split_ifs with hevidence hhuman
        · exact .inl rfl
        · exact .inl rfl
        · rw [Bool.not_eq_true', Bool.not_eq_false] at hevidence
          refine .inr ⟨⟨target, key, htarget, hnext, hkey, hevidence, fun hlive => ?_⟩, hnext⟩
          by_contra hnot
          exact hhuman ⟨hlive, by simp [hnot]⟩
    · left
      simp only [StrategyLifecycle.promote, htarget, ne_eq, hnext, not_false_iff, if_true]

/-- The lifecycle after a call. -/
def promoted (self : StrategyLifecycle) (a : Promotion) : StrategyLifecycle := (self.promote a).2

theorem isLadder_promoted :
    IsLadder promoted (fun self : StrategyLifecycle => self.state.index) Promotes where
  level_le self a := by
    rcases promote_cases self a with hsame | ⟨-, hnext⟩
    · rw [promoted, hsame]
      exact Nat.le_succ _
    · exact hnext.le
  may self a hlt := by
    rcases promote_cases self a with hsame | ⟨hpromotes, -⟩
    · rw [promoted, hsame] at hlt
      exact absurd hlt (lt_irrefl _)
    · exact hpromotes

theorem index_le_promoted (self : StrategyLifecycle) (calls : List Promotion) :
    self.state.index ≤ (calls.foldl promoted self).state.index := by
  induction calls generalizing self with
  | nil => exact le_rfl
  | cons a calls ih =>
    refine le_trans ?_ (ih (promoted self a))
    rcases promote_cases self a with hsame | ⟨-, hnext⟩
    · rw [promoted, hsame]
    · exact (Nat.le_succ _).trans hnext.ge

/-- **The state of a strategy** has been reached state by state, each with its own evidence. -/
theorem promoted_climb (self : StrategyLifecycle) (calls : List Promotion) :
    Ascent promoted (fun self : StrategyLifecycle => self.state.index) Promotes self
      (calls.foldl promoted self).state.index calls :=
  ascent_of_le isLadder_promoted (index_le_promoted self calls) le_rfl

end Promotions

/-! ## 4. The evidence for more risk -/

section Evidence

variable {policy : LiveRampPolicy} {evidence : LiveRampEvidence}

/-- Evidence that the policy accepts. -/
structure Acceptable (policy : LiveRampPolicy) (evidence : LiveRampEvidence) : Prop where
  reconciled : evidence.reconciliationPass = true
  incidents : evidence.unresolvedCriticalIncidents = 0
  protective : policy.minProtectiveSuccessRate ≤ evidence.protectiveOrderSuccessRate
  slippage : evidence.liveSlippageBps ≤ policy.maxLiveSlippageBps
  divergence : evidence.liveShadowDivergenceBps ≤ policy.maxLiveShadowDivergenceBps
  expectancy : if policy.requireNonNegativeExpectancyLcb
    then 0 ≤ evidence.expectancyLowerConfidenceBound else 0 ≤ evidence.netExpectancy
  drawdown : evidence.drawdown ≤ policy.maxDrawdown
  sample : policy.minEffectiveSampleSize ≤ evidence.effectiveSampleSize
  conditions : policy.minMarketConditions ≤ evidence.marketConditionsObserved
  healthy : evidence.strategyDegraded = false

theorem blocker_eq_nil_iff {c : Prop} [Decidable c] {name : String} :
    blocker c name = [] ↔ ¬c := by
  by_cases hc : c <;> simp [blocker, hc]

theorem blockers_eq_nil_iff : policy.blockers evidence = [] ↔ Acceptable policy evidence := by
  have hfloor : ¬(if policy.requireNonNegativeExpectancyLcb
      then evidence.expectancyLowerConfidenceBound else evidence.netExpectancy) < 0 ↔
      if policy.requireNonNegativeExpectancyLcb then 0 ≤ evidence.expectancyLowerConfidenceBound
        else 0 ≤ evidence.netExpectancy := by
    split_ifs <;> exact not_lt
  simp only [LiveRampPolicy.blockers, List.append_eq_nil_iff, blocker_eq_nil_iff, hfloor, not_lt,
    Bool.not_eq_false, Bool.not_eq_true, not_not, ne_eq]
  constructor
  · rintro ⟨⟨⟨⟨⟨⟨⟨⟨⟨h1, h2⟩, h3⟩, h4⟩, h5⟩, h6⟩, h7⟩, h8⟩, h9⟩, h10⟩
    exact ⟨h1, h2, h3, h4, h5, h6, h7, h8, h9, h10⟩
  · rintro ⟨h1, h2, h3, h4, h5, h6, h7, h8, h9, h10⟩
    exact ⟨⟨⟨⟨⟨⟨⟨⟨⟨h1, h2⟩, h3⟩, h4⟩, h5⟩, h6⟩, h7⟩, h8⟩, h9⟩, h10⟩

/-- Evidence in either form. -/
def Qualified (policy : LiveRampPolicy) : Evidence → Prop
  | .record evidence => Acceptable policy evidence
  | .dict get => ∀ key ∈ required, get key = true

theorem refusal_eq_none_iff {evidence : Evidence} :
    policy.refusal evidence = none ↔ Qualified policy evidence := by
  cases evidence with
  | record evidence =>
    unfold LiveRampPolicy.refusal
    dsimp only
    rw [Qualified, ← blockers_eq_nil_iff]
    split_ifs with h
    · exact iff_of_true rfl h
    · exact iff_of_false nofun h
  | dict get =>
    unfold LiveRampPolicy.refusal
    dsimp only
    rw [Qualified, ← List.all_eq_true]
    split_ifs with h
    · exact iff_of_true rfl h
    · exact iff_of_false nofun h

end Evidence

/-! ## 5. Stages -/

section Stages

variable {ramp : LiveRamp} {c : Call} {calls : List Call}

/-- A call that may give more risk. -/
def MayRaise (ramp : LiveRamp) : Call → Prop
  | .increase evidence humanApproved => humanApproved = true ∧ Qualified ramp.policy evidence
  | .decrease => False

/-- One stage up, but not above the last. -/
theorem index_next (stage : Stage) :
    (if stage.index < STAGES.length - 1 then STAGES.getD (stage.index + 1) stage
      else stage).index = min (stage.index + 1) 3 := by
  cases stage <;> rfl

theorem index_previous (stage : Stage) :
    (STAGES.getD (stage.index - 1) stage).index = stage.index - 1 := by
  cases stage <;> rfl

/-- **What a call of a ramp can do.** -/
theorem run_cases (ramp : LiveRamp) (c : Call) : (c.run ramp).policy = ramp.policy ∧
    ((c.run ramp).stage.index ≤ ramp.stage.index ∨
      MayRaise ramp c ∧ (c.run ramp).stage.index ≤ ramp.stage.index + 1) := by
  cases c with
  | increase evidence humanApproved =>
    cases hrefusal : ramp.policy.refusal evidence with
    | some msg =>
      simp only [Call.run, LiveRamp.increase, hrefusal]
      exact ⟨trivial, .inl le_rfl⟩
    | none =>
      simp only [Call.run, LiveRamp.increase, hrefusal]
      cases humanApproved with
      | false => exact ⟨rfl, .inl le_rfl⟩
      | true =>
        refine ⟨rfl, .inr ⟨⟨rfl, refusal_eq_none_iff.mp hrefusal⟩, ?_⟩⟩
        exact (index_next ramp.stage).le.trans (min_le_left _ _)
  | decrease => exact ⟨rfl, .inl ((index_previous ramp.stage).le.trans (Nat.sub_le _ _))⟩

theorem isLadder_run :
    IsLadder Call.run (fun ramp : LiveRamp => ramp.stage.index) MayRaise where
  level_le ramp c := by
    rcases (run_cases ramp c).2 with hle | ⟨-, hle⟩
    · exact hle.trans (Nat.le_succ _)
    · exact hle
  may ramp c hlt := by
    rcases (run_cases ramp c).2 with hle | ⟨hmay, -⟩
    · exact absurd hlt (Nat.not_lt.mpr hle)
    · exact hmay

/-- **The stage of a ramp** has been gone up to stage by stage, each with acceptable evidence and
an approval, and the ramp has not been below it since. -/
theorem stage_climb (ramp : LiveRamp) (calls : List Call) :
    Ascent Call.run (fun ramp => ramp.stage.index) MayRaise ramp
      (max ramp.stage.index (calls.foldl Call.run ramp).stage.index) calls := by
  rcases le_total ramp.stage.index (calls.foldl Call.run ramp).stage.index with hle | hle
  · rw [max_eq_right hle]
    exact ascent_of_le isLadder_run hle le_rfl
  · rw [max_eq_left hle]
    exact .start calls

/-! ## 6. The share of the risk -/

theorem policy_run (ramp : LiveRamp) (calls : List Call) :
    (calls.foldl Call.run ramp).policy = ramp.policy := by
  induction calls generalizing ramp with
  | nil => rfl
  | cons c calls ih => rw [List.foldl_cons, ih, (run_cases ramp c).1]

/-- The stages in their order, each with its share. -/
theorem stageMultipliers_eq (policy : LiveRampPolicy) : ∃ v₀ v₁ v₂ v₃ : ℚ,
    policy.stageMultipliers = [(.LIVE_STAGE_0, v₀), (.LIVE_STAGE_1, v₁), (.LIVE_STAGE_2, v₂),
      (.LIVE_STAGE_3, v₃)] ∧ v₀ ≤ v₁ ∧ v₁ ≤ v₂ ∧ v₂ ≤ v₃ := by
  have hnames := policy.names
  have hmonotonic := policy.monotonic
  match hall : policy.stageMultipliers with
  | [(s₀, v₀), (s₁, v₁), (s₂, v₂), (s₃, v₃)] =>
    rw [hall] at hnames hmonotonic
    simp only [STAGES, List.map_cons, List.map_nil, List.cons.injEq, and_true] at hnames
    obtain ⟨rfl, rfl, rfl, rfl⟩ := hnames
    refine ⟨v₀, v₁, v₂, v₃, rfl, ?_, ?_, ?_⟩
    all_goals simp_all
  | [] | [_] | [_, _] | [_, _, _] | _ :: _ :: _ :: _ :: _ :: _ =>
    rw [hall] at hnames
    simp [STAGES] at hnames

/-- A higher stage has no smaller share. -/
theorem riskMultiplier_mono {ramp' : LiveRamp} (hpolicy : ramp'.policy = ramp.policy)
    (h : ramp'.stage.index ≤ ramp.stage.index) : ramp'.riskMultiplier ≤ ramp.riskMultiplier := by
  obtain ⟨v₀, v₁, v₂, v₃, hall, h₀, h₁, h₂⟩ := stageMultipliers_eq ramp.policy
  let share : Stage → ℚ
    | .LIVE_STAGE_0 => v₀
    | .LIVE_STAGE_1 => v₁
    | .LIVE_STAGE_2 => v₂
    | .LIVE_STAGE_3 => v₃
  have hshare : ∀ stage, (ramp.policy.stageMultipliers.lookup stage).getD 0 = share stage := by
    intro stage
    rw [hall]
    cases stage <;> rfl
  have hmono : ∀ s s' : Stage, s'.index ≤ s.index → share s' ≤ share s := by
    intro s s' hle
    cases s <;> cases s' <;>
      first
      | exact absurd hle (by decide)
      | (dsimp only [share]; linarith)
  rw [LiveRamp.riskMultiplier, LiveRamp.riskMultiplier, hpolicy, hshare, hshare]
  exact hmono _ _ h

/-- **The share of the risk** does not grow without acceptable evidence and an approval. -/
theorem risk_multiplier_le (ramp : LiveRamp) (calls : List Call) :
    (calls.foldl Call.run ramp).riskMultiplier ≤ ramp.riskMultiplier ∨
      ∃ before c after, calls = before ++ c :: after ∧ MayRaise (before.foldl Call.run ramp) c := by
  by_cases hsome : ∃ before c after, calls = before ++ c :: after ∧
      MayRaise (before.foldl Call.run ramp) c
  · exact .inr hsome
  · refine .inl (riskMultiplier_mono (policy_run ramp calls) ?_)
    refine level_le_of_none isLadder_run fun before c hprefix hmay => hsome ?_
    obtain ⟨after, hafter⟩ := hprefix
    exact ⟨before, c, after, by simp [← hafter], hmay⟩

end Stages

end Kripto.Risk.Ladders
