/-
# The risk state machine

`risk/state.py`: one machine with eleven states, methods that each jump to a fixed state, and
`recover`, the only method that asks for something before it jumps.  What is permitted is a
function of the state alone, and it has four values: the states fall into `Exposed`, where new
risk is allowed, `REDUCING_ONLY`, `Severe`, and the rest.
-/
import Kripto.Execution.Order

namespace Kripto.Risk

open Execution

/-! ## 1. States and checks -/

inductive RiskState
  | STARTING | PAPER_ONLY | ACTIVE | NORMAL | DEGRADED | RESTRICTED | REDUCING_ONLY | HALTED
  | RECOVERY_PENDING | MANUAL_REVIEW_REQUIRED | STOPPING
  deriving DecidableEq, Repr

/-- The text of a state, as the transition log has it. -/
def RiskState.value : RiskState → String
  | STARTING => "STARTING"
  | PAPER_ONLY => "PAPER_ONLY"
  | ACTIVE => "ACTIVE"
  | NORMAL => "NORMAL"
  | DEGRADED => "DEGRADED"
  | RESTRICTED => "RESTRICTED"
  | REDUCING_ONLY => "REDUCING_ONLY"
  | HALTED => "HALTED"
  | RECOVERY_PENDING => "RECOVERY_PENDING"
  | MANUAL_REVIEW_REQUIRED => "MANUAL_REVIEW_REQUIRED"
  | STOPPING => "STOPPING"

structure RecoveryChecks where
  dataHealthy : Bool := false
  exchangeHealthy : Bool := false
  privateStreamHealthy : Bool := false
  reconciliationOk : Bool := false
  noOrphanOrders : Bool := false
  protectiveOrdersOk : Bool := false
  riskLimitsOk : Bool := false
  clockOk : Bool := false
  strategyHealthOk : Bool := false
  deriving DecidableEq, Repr

def RecoveryChecks.allGreen (c : RecoveryChecks) : Bool :=
  [c.dataHealthy, c.exchangeHealthy, c.privateStreamHealthy, c.reconciliationOk,
    c.noOrphanOrders, c.protectiveOrdersOk, c.riskLimitsOk, c.clockOk,
    c.strategyHealthOk].all id

/-! ## 2. The machine -/

structure RiskMachine where
  state : RiskState := .NORMAL
  reason : String := ""
  transitionLog : List (String × String × String) := []
  deriving DecidableEq

/-- The arguments of `recover`. -/
structure Recovery where
  humanApproved : Bool
  checksOk : Option Bool := none
  checks : Option RecoveryChecks := none
  target : Option RiskState := none
  deriving DecidableEq

/-- `checks` if there are any, else `checks_ok`. -/
def Recovery.green (a : Recovery) : Bool :=
  match a.checks with
  | some checks => checks.allGreen
  | none => a.checksOk.getD false

namespace RiskMachine

variable (self : RiskMachine)

def transition (target : RiskState) (reason : String) : RiskMachine where
  state := target
  reason := reason
  transitionLog := self.transitionLog ++ [(self.state.value, target.value, reason)]

def halt (reason : String) : RiskMachine := self.transition .HALTED reason

def manualReview (reason : String) : RiskMachine :=
  self.transition .MANUAL_REVIEW_REQUIRED reason

def reducingOnly (reason : String) : RiskMachine := self.transition .REDUCING_ONLY reason

def restrict (reason : String) : RiskMachine := self.transition .DEGRADED reason

def recoveryPending (reason : String := "recovery checks pending") : RiskMachine :=
  self.transition .RECOVERY_PENDING reason

/-- A refusal for lack of approval is itself a transition; a refused jump to `ACTIVE` leaves
the machine as it is. -/
def recover (a : Recovery) : Except Exc Unit × RiskMachine :=
  let safeTarget := a.target.getD .NORMAL
  if !a.humanApproved || !a.green then
    (.error (.permissionError "recovery requires human approval and green checks"),
      self.recoveryPending "recovery requires human approval and green checks")
  else if safeTarget = .ACTIVE ∧
      self.state ∉ [RiskState.RECOVERY_PENDING, .RESTRICTED, .DEGRADED] then
    (.error (.permissionError "ACTIVE recovery requires RECOVERY_PENDING/DEGRADED staging"), self)
  else (.ok (), self.transition safeTarget "")

def allowNewRisk : Bool := self.state ∈ [RiskState.NORMAL, .ACTIVE]

end RiskMachine

inductive RiskAction
  | OPEN | REDUCE | CANCEL | CLOSE | RECOVER
  deriving DecidableEq, Repr

def RiskMachine.allowedActions (self : RiskMachine) : List RiskAction :=
  if self.allowNewRisk then [.OPEN, .REDUCE, .CANCEL, .CLOSE]
  else if self.state = .REDUCING_ONLY then [.REDUCE, .CANCEL, .CLOSE]
  else if self.state ∈ [RiskState.HALTED, .MANUAL_REVIEW_REQUIRED] then
    [.CANCEL, .CLOSE, .RECOVER]
  else [.REDUCE, .CANCEL, .CLOSE, .RECOVER]

/-! ## 3. What is permitted in which state -/

/-- The states an incident puts the machine in; reducing is not among what they permit. -/
def RiskState.Severe (s : RiskState) : Prop := s = .HALTED ∨ s = .MANUAL_REVIEW_REQUIRED

instance (s : RiskState) : Decidable s.Severe := inferInstanceAs (Decidable (_ ∨ _))

variable {m : RiskMachine}

theorem open_mem_iff : RiskAction.OPEN ∈ m.allowedActions ↔ m.allowNewRisk = true := by
  unfold RiskMachine.allowedActions
  cases m.allowNewRisk <;> simp
  split <;> try split
  all_goals simp

theorem reduce_mem_iff : RiskAction.REDUCE ∈ m.allowedActions ↔ ¬m.state.Severe := by
  unfold RiskMachine.allowedActions RiskMachine.allowNewRisk RiskState.Severe
  cases m.state <;> decide

theorem cancel_mem : RiskAction.CANCEL ∈ m.allowedActions := by
  unfold RiskMachine.allowedActions
  split_ifs <;> simp

theorem close_mem : RiskAction.CLOSE ∈ m.allowedActions := by
  unfold RiskMachine.allowedActions
  split_ifs <;> simp

/-! ## 4. The methods -/

/-- A call of a method of the machine that can change it. -/
inductive RiskMachine.Method
  | halt (reason : String)
  | manualReview (reason : String)
  | reducingOnly (reason : String)
  | restrict (reason : String)
  | recoveryPending (reason : String)
  | recover (a : Recovery)
  deriving DecidableEq

/-- What a method answers and what it makes of the machine. -/
def RiskMachine.Method.run : RiskMachine.Method → RiskMachine → Except Exc Unit × RiskMachine
  | .halt reason, m => (.ok (), m.halt reason)
  | .manualReview reason, m => (.ok (), m.manualReview reason)
  | .reducingOnly reason, m => (.ok (), m.reducingOnly reason)
  | .restrict reason, m => (.ok (), m.restrict reason)
  | .recoveryPending reason, m => (.ok (), m.recoveryPending reason)
  | .recover a, m => m.recover a

/-- A `recover` with human approval and green checks. -/
def RiskMachine.Method.Approved (c : RiskMachine.Method) : Prop :=
  ∃ a : Recovery, c = .recover a ∧ a.humanApproved = true ∧ a.green = true

theorem recover_of_not_approved {a : Recovery} (h : ¬(a.humanApproved = true ∧ a.green = true)) :
    (m.recover a).2.state = .RECOVERY_PENDING := by
  have hrefused : (!a.humanApproved || !a.green) = true := by
    cases ha : a.humanApproved <;> cases hg : a.green <;> simp_all
  simp only [RiskMachine.recover, if_pos hrefused]
  rfl

/-- **Every other method leaves a state that allows no new risk.** -/
theorem allowNewRisk_run {c : RiskMachine.Method} (h : ¬c.Approved) :
    (c.run m).2.allowNewRisk = false := by
  cases c with
  | recover a =>
    have hstate := recover_of_not_approved (m := m) (a := a) fun ha => h ⟨a, rfl, ha⟩
    simp only [RiskMachine.Method.run, RiskMachine.allowNewRisk, hstate]
    decide
  | _ => simp [RiskMachine.Method.run, RiskMachine.allowNewRisk, RiskMachine.halt,
      RiskMachine.manualReview, RiskMachine.reducingOnly, RiskMachine.restrict,
      RiskMachine.recoveryPending, RiskMachine.transition]

/-- From `RECOVERY_PENDING` an approved recovery reaches its target, `ACTIVE` included. -/
theorem recover_of_pending {a : Recovery} (hm : m.state = .RECOVERY_PENDING)
    (happroved : a.humanApproved = true) (hgreen : a.green = true) :
    m.recover a = (.ok (), m.transition (a.target.getD .NORMAL) "") := by
  simp [RiskMachine.recover, happroved, hgreen, hm]

end Kripto.Risk
