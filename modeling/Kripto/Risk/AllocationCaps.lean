/-
# Every cap of one allocation cycle

`CapitalAllocator.allocate_cycle` on a validated snapshot: one decision for each candidate within
what this may get (`fill_capped`), and all decisions within the two budgets.  The candidates are
ranked by score and symbol, so with distinct symbols it does not matter in which order they are
listed (`ranked_congr`).
-/
import Kripto.Effect.Sorting
import Kripto.Risk.Allocation

namespace Kripto.Risk.CapitalAllocator

open Effect Execution

/-! ## 1. One decision for each candidate -/

/-- The decision is about the candidate, and within what the candidate may get. -/
structure Capped (s : AllocationState) (c : AllocationCandidate) (d : AllocationDecision) :
    Prop where
  symbol : d.symbol = c.symbol
  nonneg : 0 ≤ d.allocatedNotional
  le_requested : d.allocatedNotional ≤ max 0 c.requestedNotional
  le_single : d.allocatedNotional ≤ s.accountEquity * s.maxSingleCandidateFraction
  stopLoss : d.expectedStopLoss = d.allocatedNotional * c.stopRiskFraction

variable {s : AllocationState} {cs cs' : List AllocationCandidate}

theorem stopLoss_decideOne (single remN remR : ℚ) (c : AllocationCandidate) :
    (decideOne single remN remR c).expectedStopLoss =
      (decideOne single remN remR c).allocatedNotional * c.stopRiskFraction := by
  unfold decideOne
  dsimp only
  split_ifs
  · exact (zero_mul _).symm
  · exact (zero_mul _).symm
  · exact (zero_mul _).symm
  · exact (zero_mul _).symm
  · rfl

theorem demand_le_requested (single : ℚ) (c : AllocationCandidate) :
    demand single c ≤ max 0 c.requestedNotional := by
  unfold demand
  split_ifs
  · exact (min_le_left _ _).trans (le_max_right _ _)
  · exact le_max_left _ _

theorem demand_le_single {single : ℚ} (hs : 0 ≤ single) (c : AllocationCandidate) :
    demand single c ≤ single := by
  unfold demand
  split_ifs
  · exact min_le_right _ _
  · exact hs

theorem capped_decideOne (h : Valid s) (remN remR : ℚ) (c : AllocationCandidate) :
    Capped s c (decideOne (singleCap s) remN remR c) := by
  have hsound := sound_decideOne h.singleCap_nonneg remN remR c
  constructor
  · exact hsound.symbol
  · exact hsound.notional_nonneg
  · exact hsound.demand_le.trans (demand_le_requested _ c)
  · exact hsound.demand_le.trans (demand_le_single h.singleCap_nonneg c)
  · exact stopLoss_decideOne _ remN remR c

/-- **The loop** decides on one candidate after the other. -/
theorem fill_capped (h : Valid s) (cs : List AllocationCandidate) (remN remR : ℚ) :
    List.Forall₂ (Capped s) cs (fill (singleCap s) remN remR cs) := by
  induction cs generalizing remN remR with
  | nil => exact .nil
  | cons c cs ih => exact .cons (capped_decideOne h remN remR c) (ih _ _)

/-! ## 2. The order of the candidates -/

instance rankedBefore_total : Std.Total RankedBefore := by
  refine ⟨fun a b => ?_⟩
  rcases lt_trichotomy (score a) (score b) with hlt | heq | hgt
  · exact .inr (.inl hlt)
  · rcases String.le_total a.symbol b.symbol with hle | hle
    · exact .inl (.inr ⟨heq, hle⟩)
    · exact .inr (.inr ⟨heq.symm, hle⟩)
  · exact .inl (.inl hgt)

instance rankedBefore_trans : IsTrans AllocationCandidate RankedBefore := by
  refine ⟨?_⟩
  rintro a b c (hab | ⟨hab, hsymbol⟩) (hbc | ⟨hbc, hsymbol'⟩)
  · exact .inl (hbc.trans hab)
  · exact .inl (hbc ▸ hab)
  · exact .inl (hab ▸ hbc)
  · exact .inr ⟨hab.trans hbc, String.le_trans hsymbol hsymbol'⟩

/-- Candidates that are ranked alike have the same symbol. -/
theorem symbol_eq_of_rankedBefore {a b : AllocationCandidate} (hab : RankedBefore a b)
    (hba : RankedBefore b a) : a.symbol = b.symbol := by
  rcases hab with hab | ⟨heq, hab⟩
  · rcases hba with hba | ⟨heq, -⟩
    · exact absurd hab hba.asymm
    · exact absurd heq hab.ne
  · rcases hba with hba | ⟨-, hba⟩
    · exact absurd heq hba.ne
    · exact String.le_antisymm hab hba

/-- **Ranking** forgets in which order candidates with distinct symbols are listed. -/
theorem ranked_congr (hnodup : (cs.map (·.symbol)).Nodup) (hperm : cs.Perm cs') :
    ranked cs = ranked cs' := by
  refine insertionSort_congr hperm fun a ha b hb hab hba => ?_
  exact List.inj_on_of_nodup_map hnodup ha hb (symbol_eq_of_rankedBefore hab hba)

/-! ## 3. One cycle -/

/-- **One cycle on a validated snapshot** makes one decision for each candidate, each and all of
them within their caps, and the same decisions in whatever order the candidates are listed. -/
theorem cycle_within_caps (s : AllocationState) (cs : List AllocationCandidate)
    (hvalid : validateState s = .ok ()) :
    ∃ ds, allocateCycle s cs = .ok ds ∧
      (∃ order, order.Perm cs ∧ List.Forall₂ (Capped s) order ds) ∧
      notional ds ≤ min
        (max 0 (s.freeCash - s.openOrderReserved - s.accountEquity * s.reserveFraction
          - s.accountEquity * s.costBufferFraction))
        (s.accountEquity * s.maxCycleAllocationFraction) ∧
      stopLoss ds ≤ min s.riskBudgetRemaining
        (max 0 (s.accountEquity * (s.maxPortfolioHeatFraction - s.portfolioHeatFraction))) ∧
      ((cs.map (·.symbol)).Nodup → ∀ cs', cs.Perm cs' → allocateCycle s cs' = .ok ds) := by
  have h : Valid s := (validateState_eq_ok_iff s).mp hvalid
  have hcycle : ∀ cs, allocateCycle s cs =
      .ok (fill (singleCap s) (notionalCap s) (riskCap s) (ranked cs)) := by
    intro cs
    rw [allocateCycle, hvalid]
    rfl
  obtain ⟨hnotional, hrisk⟩ :=
    fill_le_budget h.singleCap_nonneg (ranked cs) (notionalCap s) (riskCap s)
  rw [max_eq_right h.notionalCap_nonneg] at hnotional
  rw [max_eq_right h.riskCap_nonneg] at hrisk
  refine ⟨_, hcycle cs, ⟨ranked cs, ranked_perm cs, fill_capped h _ _ _⟩, hnotional, hrisk, ?_⟩
  intro hnodup cs' hperm
  rw [hcycle cs', ranked_congr hnodup hperm]

/-- Two candidates that want the same budget. -/
def twoCandidates : List AllocationCandidate :=
  [⟨"ETHUSDT", 900, 40, 1 / 50, 0, 1, 0, 1, 1, 1, 1⟩,
    ⟨"BTCUSDT", 900, 50, 1 / 50, 0, 1, 0, 1, 1, 1, 1⟩]

/-- A snapshot whose cycle cap is less than both together. -/
def snapshot : AllocationState := ⟨10000, 8000, 1 / 100, 6 / 100, 300, 0, 15 / 100, 5 / 1000,
  12 / 100, 10 / 100⟩

theorem cycle_within_caps_twoCandidates :
    validateState snapshot = .ok () ∧ (twoCandidates.map (·.symbol)).Nodup ∧
      ∃ ds, allocateCycle snapshot twoCandidates = .ok ds ∧
        allocateCycle snapshot twoCandidates.reverse = .ok ds ∧ notional ds ≤ 1200 := by
  have hvalid : validateState snapshot = .ok () := by decide +kernel
  have hnodup : (twoCandidates.map (·.symbol)).Nodup := by decide
  obtain ⟨ds, hds, -, hnotional, -, hsame⟩ := cycle_within_caps snapshot twoCandidates hvalid
  refine ⟨hvalid, hnodup, ds, hds, hsame hnodup _ (List.reverse_perm _).symm, ?_⟩
  refine hnotional.trans ((min_le_right _ _).trans ?_)
  norm_num [snapshot]

end Kripto.Risk.CapitalAllocator
