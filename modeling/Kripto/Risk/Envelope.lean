/-
# The envelope of a cycle

`ConcurrentAllocationCoordinator` keeps two counters for the current cycle and lowers
`free_cash` and `risk_budget_remaining` of the snapshot by them.  The other caps -- the cycle
cap, the heat capacity, the cap of a single candidate -- are recomputed in full on every call,
and entering another cycle forgets the counters.

* `envelope_shared_of_affordable`: the calls of one cycle share the caps of one
  `allocate_cycle`, as long as no call is offered more than the cycle has left.
* `cycles_keep_budget_of_continuing`: no cycle gets more than the snapshot's cash and risk
  budget, as long as no cycle is taken up again after another one came in between.

`envelope_not_shared` and `cycles_lose_budget` are runs outside these conditions.
-/
import Kripto.Risk.Allocation

namespace Kripto.Risk

open Effect Execution CapitalAllocator ConcurrentAllocationCoordinator

/-! ## 1. What a run has granted -/

/-- The log of a coordinator. -/
abbrev AllocationLog : Type :=
  Log ConcurrentAllocationCoordinator AllocationRequest (Except Exc (List AllocationDecision))

/-- The decisions of one answer. -/
def decisionsOf : Except Exc (List AllocationDecision) → List AllocationDecision
  | .ok ds => ds
  | .error _ => []

/-- Everything decided under one cycle id. -/
def granted (cycleId : String)
    (past : List (AllocationRequest × Except Exc (List AllocationDecision))) :
    List AllocationDecision :=
  past.flatMap fun e => if e.1.cycleId = cycleId then decisionsOf e.2 else []

@[simp] theorem granted_nil (cycleId : String) : granted cycleId [] = [] := rfl

@[simp] theorem granted_append_singleton (cycleId : String)
    (past : List (AllocationRequest × Except Exc (List AllocationDecision)))
    (req : AllocationRequest) (r : Except Exc (List AllocationDecision)) :
    granted cycleId (past ++ [(req, r)]) =
      granted cycleId past ++ if req.cycleId = cycleId then decisionsOf r else [] := by
  simp [granted]

/-! ## 2. One call -/

variable {s : AllocationState} {self : ConcurrentAllocationCoordinator}

theorem valid_adjusted (self : ConcurrentAllocationCoordinator) (h : Valid s) :
    Valid (self.adjusted s) :=
  ⟨h.equity, le_max_left _ _, le_max_left _ _, h.heat, h.maxHeat, h.fractions⟩

/-- A call without a cycle id is refused and changes nothing. -/
theorem reconcile_unnamed {req : AllocationRequest} (h : req.cycleId = "") :
    reconcileAndAllocate self req = (.error (.valueError "cycle_id required"), self) := by
  simp [reconcileAndAllocate, beginCycle, h]

/-- **A call on a valid snapshot** allocates from the adjusted one and is charged for it. -/
theorem reconcile_valid (self : ConcurrentAllocationCoordinator) {req : AllocationRequest}
    (h : req.cycleId ≠ "") (hs : Valid req.state) :
    ∃ ds, reconcileAndAllocate self req = (.ok ds, (self.entered req.cycleId).charged ds) ∧
      Within ((self.entered req.cycleId).adjusted req.state) req.candidates ds := by
  obtain ⟨ds, hds, hwithin⟩ := allocateCycle_within
    (valid_adjusted (self.entered req.cycleId) hs) req.candidates
  exact ⟨ds, by simp [reconcileAndAllocate, beginCycle, h, hds], hwithin⟩

theorem entered_cycleId (self : ConcurrentAllocationCoordinator) (cycleId : String) :
    (self.entered cycleId).cycleId = some cycleId := by
  by_cases h : self.cycleId = some cycleId <;> simp [entered, h]

theorem entered_of_current {cycleId : String} (h : self.cycleId = some cycleId) :
    self.entered cycleId = self := by
  simp [entered, h]

/-- The counters a call under `cycleId` starts from are what was granted under it. -/
structure Counted (cycleId : String) (l : AllocationLog) : Prop where
  notional : (l.now.entered cycleId).allocatedNotional = notional (granted cycleId l.past)
  risk : (l.now.entered cycleId).allocatedRisk = stopLoss (granted cycleId l.past)

/-- A call under a cycle keeps its count. -/
theorem Counted.call {l : AllocationLog} (req : AllocationRequest)
    (hl : Counted req.cycleId l) (hs : Valid req.state) :
    Counted req.cycleId (l.call reconcileAndAllocate req) := by
  by_cases h : req.cycleId = ""
  · constructor
    · simpa [reconcile_unnamed h, decisionsOf] using hl.notional
    · simpa [reconcile_unnamed h, decisionsOf] using hl.risk
  · obtain ⟨ds, hds, -⟩ := reconcile_valid l.now h hs
    have hcurrent : ((l.now.entered req.cycleId).charged ds).cycleId = some req.cycleId :=
      entered_cycleId l.now req.cycleId
    constructor
    · rw [Log.call_now, hds, entered_of_current hcurrent]
      simp [hds, charged, decisionsOf, hl.notional]
    · rw [Log.call_now, hds, entered_of_current hcurrent]
      simp [hds, charged, decisionsOf, hl.risk]

/-! ## 3. One cycle, many calls -/

/-- The caps one `allocate_cycle` on `s` enforces, as bounds on a list of decisions. -/
structure WithinCaps (s : AllocationState) (ds : List AllocationDecision) : Prop where
  notional : notional ds ≤ notionalCap s
  stopLoss : stopLoss ds ≤ riskCap s
  symbol : ∀ symbol, notionalOf symbol ds ≤ singleCap s

/-- **The call fits into what its cycle has left.**  Of each cap, the cycle has not used up
more than leaves room for this call: for what the call's own, recomputed cap is, or for all its
candidates can get, whichever is less. -/
structure Affordable (l : AllocationLog) (req : AllocationRequest) : Prop where
  notional : min (notionalCap ((l.now.entered req.cycleId).adjusted req.state))
      (notionalDemand (singleCap req.state) req.candidates)
    ≤ notionalCap req.state - (l.now.entered req.cycleId).allocatedNotional
  stopLoss : min (riskCap ((l.now.entered req.cycleId).adjusted req.state))
      (riskDemand (singleCap req.state) req.candidates)
    ≤ riskCap req.state - (l.now.entered req.cycleId).allocatedRisk
  symbol : ∀ c ∈ req.candidates,
    min (notionalCap ((l.now.entered req.cycleId).adjusted req.state))
        (symbolDemand (singleCap req.state) c.symbol req.candidates)
      ≤ singleCap req.state - notionalOf c.symbol (granted req.cycleId l.past)

instance (l : AllocationLog) (req : AllocationRequest) : Decidable (Affordable l req) :=
  decidable_of_iff (_ ∧ _ ∧ _) ⟨fun ⟨h₁, h₂, h₃⟩ => ⟨h₁, h₂, h₃⟩, fun ⟨h₁, h₂, h₃⟩ => ⟨h₁, h₂, h₃⟩⟩

/-- An affordable call keeps the caps of its cycle. -/
theorem WithinCaps.call {l : AllocationLog} (req : AllocationRequest) (hs : Valid req.state)
    (hcounted : Counted req.cycleId l) (hcaps : WithinCaps req.state (granted req.cycleId l.past))
    (h : Affordable l req) :
    WithinCaps req.state (granted req.cycleId (l.call reconcileAndAllocate req).past) := by
  rw [Log.call_past, granted_append_singleton, if_pos rfl]
  by_cases hid : req.cycleId = ""
  · simpa [reconcile_unnamed hid, decisionsOf] using hcaps
  · obtain ⟨ds, hds, hwithin⟩ := reconcile_valid l.now hid hs
    have hnotional := (le_min hwithin.notional_le_cap hwithin.notional_le_demand).trans h.notional
    have hstop := (le_min hwithin.stopLoss_le_cap hwithin.stopLoss_le_demand).trans h.stopLoss
    rw [hcounted.notional] at hnotional
    rw [hcounted.risk] at hstop
    rw [hds, decisionsOf]
    constructor
    · rw [notional_append]
      linarith
    · rw [stopLoss_append]
      linarith
    · intro symbol
      rw [notionalOf_append]
      by_cases hsymbol : ∃ c ∈ req.candidates, c.symbol = symbol
      · obtain ⟨c, hc, rfl⟩ := hsymbol
        have hone := (le_min ((hwithin.symbol_le_notional c.symbol).trans hwithin.notional_le_cap)
          (hwithin.symbol_le_demand c.symbol)).trans (h.symbol c hc)
        linarith
      · rw [hwithin.other_symbol symbol fun c hc hcs => hsymbol ⟨c, hc, hcs⟩, add_zero]
        exact hcaps.symbol symbol

theorem withinCaps_nil (hs : Valid s) : WithinCaps s [] := by
  constructor
  · exact hs.notionalCap_nonneg
  · exact hs.riskCap_nonneg
  · intro symbol
    exact hs.singleCap_nonneg

/-- The calls of workers that allocate in one cycle from one snapshot. -/
def sharing (cycleId : String) (s : AllocationState) (offers : List (List AllocationCandidate)) :
    List AllocationRequest :=
  offers.map (AllocationRequest.mk cycleId s)

/-- **The calls of a cycle share one envelope**, if each is affordable when it comes. -/
theorem envelope_shared_of_affordable (hs : Valid s) {cycleId : String}
    (hself : self.cycleId ≠ some cycleId) (offers : List (List AllocationCandidate))
    (h : Log.Meeting reconcileAndAllocate Affordable (Log.start self) (sharing cycleId s offers)) :
    WithinCaps s (granted cycleId
      ((Log.start self).calls reconcileAndAllocate (sharing cycleId s offers)).past) := by
  have hcounted : Counted cycleId (Log.start self : AllocationLog) := by
    constructor <;> simp [entered, hself]
  have hcaps : WithinCaps s (granted cycleId (Log.start self : AllocationLog).past) :=
    withinCaps_nil hs
  generalize (Log.start self : AllocationLog) = l at *
  induction offers generalizing l with
  | nil => exact hcaps
  | cons cs offers ih =>
    obtain ⟨hcall, hrest⟩ := h
    exact ih _ hrest (Counted.call ⟨cycleId, s, cs⟩ hcounted hs)
      (WithinCaps.call ⟨cycleId, s, cs⟩ hs hcounted hcaps hcall)

/-! ## 4. Many cycles -/

/-- **The call goes on with a cycle.**  Its cycle is the current one, or has not been granted
anything yet; and what is set aside of the cash is not negative. -/
structure Continuing (l : AllocationLog) (req : AllocationRequest) : Prop where
  cycle : l.now.cycleId = some req.cycleId ∨
    (notional (granted req.cycleId l.past) = 0 ∧ stopLoss (granted req.cycleId l.past) = 0)
  setAside : 0 ≤ req.state.openOrderReserved
    + req.state.accountEquity * req.state.reserveFraction
    + req.state.accountEquity * req.state.costBufferFraction

instance (l : AllocationLog) (req : AllocationRequest) : Decidable (Continuing l req) :=
  decidable_of_iff (_ ∧ _) ⟨fun ⟨h₁, h₂⟩ => ⟨h₁, h₂⟩, fun ⟨h₁, h₂⟩ => ⟨h₁, h₂⟩⟩

/-- The invariant of interleaved cycles: the current cycle's counters are right, and every
cycle is within the snapshot's cash and risk budget. -/
structure Budgeted (s : AllocationState) (l : AllocationLog) : Prop where
  current : ∀ cycleId, l.now.cycleId = some cycleId → Counted cycleId l
  cash : ∀ cycleId, notional (granted cycleId l.past) ≤ s.freeCash
  risk : ∀ cycleId, stopLoss (granted cycleId l.past) ≤ s.riskBudgetRemaining

theorem Budgeted.counted {l : AllocationLog} {req : AllocationRequest} (hl : Budgeted s l)
    (h : Continuing l req) : Counted req.cycleId l := by
  rcases h.cycle with hcurrent | ⟨hnotional, hstop⟩
  · exact hl.current _ hcurrent
  · by_cases hcurrent : l.now.cycleId = some req.cycleId
    · exact hl.current _ hcurrent
    · constructor
      · simp [entered, hcurrent, hnotional]
      · simp [entered, hcurrent, hstop]

theorem liquidBudget_adjusted_le (h : 0 ≤ s.openOrderReserved
    + s.accountEquity * s.reserveFraction + s.accountEquity * s.costBufferFraction) :
    liquidBudget (self.adjusted s) ≤ max 0 (s.freeCash - self.allocatedNotional) := by
  refine max_le (le_max_left _ _) ?_
  simp only [adjusted]
  linarith

/-- A call that goes on with a cycle keeps every cycle within the budget. -/
theorem Budgeted.call {l : AllocationLog} (req : AllocationRequest) (hs : Valid req.state)
    (hl : Budgeted req.state l) (h : Continuing l req) :
    Budgeted req.state (l.call reconcileAndAllocate req) := by
  have hcounted := hl.counted h
  by_cases hid : req.cycleId = ""
  · have hgranted : ∀ cycleId, granted cycleId (l.call reconcileAndAllocate req).past
        = granted cycleId l.past := by
      intro cycleId
      simp [reconcile_unnamed hid, decisionsOf]
    have hnow : (l.call reconcileAndAllocate req).now = l.now := by
      simp [reconcile_unnamed hid]
    constructor
    · intro cycleId hcurrent
      rw [hnow] at hcurrent
      constructor
      · rw [hgranted, hnow]
        exact (hl.current cycleId hcurrent).notional
      · rw [hgranted, hnow]
        exact (hl.current cycleId hcurrent).risk
    · intro cycleId
      rw [hgranted]
      exact hl.cash cycleId
    · intro cycleId
      rw [hgranted]
      exact hl.risk cycleId
  · obtain ⟨ds, hds, hwithin⟩ := reconcile_valid l.now hid hs
    have hother : ∀ cycleId, cycleId ≠ req.cycleId →
        granted cycleId (l.call reconcileAndAllocate req).past = granted cycleId l.past := by
      intro cycleId hne
      simp [Ne.symm hne]
    have hown : granted req.cycleId (l.call reconcileAndAllocate req).past
        = granted req.cycleId l.past ++ ds := by
      simp [hds, decisionsOf]
    constructor
    · intro cycleId hcurrent
      have hnow : (l.call reconcileAndAllocate req).now.cycleId = some req.cycleId := by
        rw [Log.call_now, hds]
        exact entered_cycleId l.now req.cycleId
      rw [hnow] at hcurrent
      obtain rfl : req.cycleId = cycleId := by simpa using hcurrent
      exact hcounted.call req hs
    · intro cycleId
      by_cases hne : cycleId = req.cycleId
      · subst hne
        have hcap := hwithin.notional_le_cap.trans
          ((min_le_left _ _).trans (liquidBudget_adjusted_le h.setAside))
        rw [hcounted.notional, max_eq_right (by linarith [hl.cash req.cycleId])] at hcap
        rw [hown, notional_append]
        linarith
      · rw [hother cycleId hne]
        exact hl.cash cycleId
    · intro cycleId
      by_cases hne : cycleId = req.cycleId
      · subst hne
        have hcap : stopLoss ds ≤ max 0 (req.state.riskBudgetRemaining
            - (l.now.entered req.cycleId).allocatedRisk) :=
          hwithin.stopLoss_le_cap.trans (min_le_left _ _)
        rw [hcounted.risk, max_eq_right (by linarith [hl.risk req.cycleId])] at hcap
        rw [hown, stopLoss_append]
        linarith
      · rw [hother cycleId hne]
        exact hl.risk cycleId

/-- The calls of workers that allocate from one snapshot in cycles of their own. -/
def mixing (s : AllocationState) (offers : List (String × List AllocationCandidate)) :
    List AllocationRequest :=
  offers.map fun o => ⟨o.1, s, o.2⟩

/-- **No cycle gets more than the snapshot has**, in any interleaving of cycles none of which
is taken up again. -/
theorem cycles_keep_budget_of_continuing (hs : Valid s)
    (offers : List (String × List AllocationCandidate))
    (h : Log.Meeting reconcileAndAllocate Continuing (Log.start {}) (mixing s offers))
    (cycleId : String) :
    let past := ((Log.start {}).calls reconcileAndAllocate (mixing s offers)).past
    notional (granted cycleId past) ≤ s.freeCash ∧
      stopLoss (granted cycleId past) ≤ s.riskBudgetRemaining := by
  have hstart : Budgeted s (Log.start {}) := by
    constructor
    · intro cycleId hcurrent
      simp at hcurrent
    · intro cycleId
      simpa using hs.cash
    · intro cycleId
      simpa using hs.budget
  suffices Budgeted s ((Log.start {}).calls reconcileAndAllocate (mixing s offers)) from
    ⟨this.cash cycleId, this.risk cycleId⟩
  generalize (Log.start {} : AllocationLog) = l at *
  induction offers generalizing l with
  | nil => exact hstart
  | cons o offers ih =>
    obtain ⟨hcall, hrest⟩ := h
    exact ih _ hrest (Budgeted.call ⟨o.1, s, o.2⟩ hs hstart hcall)

/-! ## 5. Runs -/

/-- A candidate with an edge, asking for `requested` at a stop risk of two percent. -/
def AllocationCandidate.edge (symbol : String) (requested : ℚ) : AllocationCandidate :=
  ⟨symbol, requested, 20, 2 / 100, 0, 1, 0, 1, 1, 1, 1⟩

/-- Ample cash, so that the cycle cap of 200 and the single cap of 100 are what binds. -/
def AllocationState.ample : AllocationState :=
  ⟨1000, 1000, 0, 5 / 100, 40, 0, 0, 0, 20 / 100, 10 / 100⟩

/-- Cash of 10 and no other cap that binds. -/
def AllocationState.scarce : AllocationState := ⟨100, 10, 0, 1, 10, 0, 0, 0, 1, 1⟩

/-- Three workers whose requests use up the cycle cap. -/
theorem envelope_shared_of_affordable_three :
    WithinCaps .ample (granted "cycle-1" ((Log.start {}).calls reconcileAndAllocate
      (sharing "cycle-1" .ample [[.edge "BTCUSDT" 60], [.edge "ETHUSDT" 100],
        [.edge "SOLUSDT" 40]])).past) :=
  envelope_shared_of_affordable (by decide +kernel) (by decide) _ (by decide +kernel)

/-- **The calls of a cycle do not share the envelope.**  Three workers offer BTCUSDT in turn,
each is allocated the single cap, and the cycle has handed out half as much again as its cap. -/
theorem envelope_not_shared : ¬ ∀ (s : AllocationState) (self : ConcurrentAllocationCoordinator)
    (cycleId : String) (offers : List (List AllocationCandidate)), Valid s →
    self.cycleId ≠ some cycleId →
    WithinCaps s (granted cycleId
      ((Log.start self).calls reconcileAndAllocate (sharing cycleId s offers)).past) := by
  intro h
  have hcaps := h .ample {} "cycle-1" (List.replicate 3 [.edge "BTCUSDT" 100])
    (by decide +kernel) (by decide)
  exact absurd hcaps.notional (by decide +kernel)

/-- Two cycles in turn, and none taken up again. -/
theorem cycles_keep_budget_of_continuing_two :
    let past := ((Log.start {}).calls reconcileAndAllocate
      (mixing .scarce [("A", [.edge "BTCUSDT" 6]), ("A", [.edge "BTCUSDT" 6]),
        ("B", [.edge "BTCUSDT" 10])])).past
    notional (granted "A" past) ≤ AllocationState.scarce.freeCash ∧
      stopLoss (granted "A" past) ≤ AllocationState.scarce.riskBudgetRemaining :=
  cycles_keep_budget_of_continuing (by decide +kernel) _ (by decide +kernel) "A"

/-- **Interleaved cycles reset the envelope.**  In the order A, B, A the cycle A is allocated
the whole cash twice. -/
theorem cycles_lose_budget : ¬ ∀ (s : AllocationState)
    (offers : List (String × List AllocationCandidate)), Valid s → ∀ cycleId : String,
    let past := ((Log.start {}).calls reconcileAndAllocate (mixing s offers)).past
    notional (granted cycleId past) ≤ s.freeCash ∧
      stopLoss (granted cycleId past) ≤ s.riskBudgetRemaining := by
  intro h
  have hcash := (h .scarce [("A", [.edge "BTCUSDT" 10]), ("B", [.edge "ETHUSDT" 10]),
    ("A", [.edge "BTCUSDT" 10])] (by decide) "A").1
  exact absurd hcash (by decide +kernel)

end Kripto.Risk
