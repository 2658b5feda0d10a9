/-
# The votes of the strategies

`strategies/ensemble.py`, `resolve_conflict`: each vote has a score, and the sum of the scores says
what is done.  A score has the sign of the vote's side and of the edge that it expects, together.
So a vote against which an edge is expected counts for the other side.

* `resolve_faithful`: what an action needs of the votes, whatever their order is, and with the sides
  exchanged;
* `faithful_iff_sincere`: the votes with which whatever is done has a vote for its side;
* `bought_on_a_sell_vote`: an action that no vote has for its side.
-/
import Mathlib.Algebra.Order.BigOperators.Group.List
import Mathlib.Algebra.Order.Field.Rat
import Mathlib.Data.Rat.Defs
import Mathlib.Tactic.Linarith
import Mathlib.Tactic.Ring

namespace Kripto.Strategy.Ensemble

/-! ## 1. `strategies/ensemble.py` -/

structure StrategyVote where
  strategyId : String
  side : String
  expectedEdgeBps : ℚ
  confidence : ℚ
  health : ℚ
  regimeFit : ℚ
  riskScore : ℚ
  turnover : ℚ := 0
  capacityNeed : ℚ := 0

inductive Action
  | NO_TRADE | BUY | SELL
  deriving DecidableEq

structure ConflictDecision where
  action : Action
  score : ℚ
  reason : String
  version : String := "1.0"
  deriving DecidableEq

/-- `max(0.0, min(1.0, x))`. -/
def clamp (x : ℚ) : ℚ := max 0 (min 1 x)

namespace StrategyVote

variable (upper : String → String) (v : StrategyVote)

def direction : ℚ := if upper v.side = "BUY" then 1 else if upper v.side = "SELL" then -1 else 0

def quality : ℚ := clamp v.confidence * clamp v.health * clamp v.regimeFit

def score : ℚ :=
  v.direction upper * (v.expectedEdgeBps / 100) * v.quality * (1 - clamp v.riskScore)

end StrategyVote

/-- What is done with the sums of the scores and of their sizes. -/
def ConflictDecision.ofSums (net gross minScore maxConflict : ℚ) : ConflictDecision :=
  let conflict := if gross = 0 then 0 else 1 - |net| / gross
  if maxConflict < conflict ∨ |net| < minScore then
    { action := .NO_TRADE, score := net, reason := "HIGH_CONFLICT_OR_LOW_EDGE" }
  else {
    action := if 0 < net then .BUY else .SELL
    score := net
    reason := "OOS_VERSIONED_CONFLICT_RESOLUTION" }

def resolveConflict (upper : String → String) (votes : List StrategyVote) (minScore : ℚ := 1 / 10)
    (maxConflict : ℚ := 45 / 100) : ConflictDecision :=
  if votes = [] then { action := .NO_TRADE, score := 0, reason := "NO_VOTES" }
  else
    let scored := votes.map (·.score upper)
    .ofSums scored.sum (scored.map abs).sum minScore maxConflict

/-! ## 2. What a vote counts for -/

def Action.swap : Action → Action
  | NO_TRADE => NO_TRADE
  | BUY => SELL
  | SELL => BUY

/-- The vote is for this action and expects an edge, or is for the other and expects a loss. -/
def StrategyVote.CountsFor (upper : String → String) (v : StrategyVote) : Action → Prop
  | .BUY => upper v.side = "BUY" ∧ 0 < v.expectedEdgeBps ∨
      upper v.side = "SELL" ∧ v.expectedEdgeBps < 0
  | .SELL => upper v.side = "SELL" ∧ 0 < v.expectedEdgeBps ∨
      upper v.side = "BUY" ∧ v.expectedEdgeBps < 0
  | .NO_TRADE => False

/-- The same vote with `BUY` and `SELL` exchanged. -/
structure Mirrors (upper : String → String) (v v' : StrategyVote) : Prop where
  rest : v' = { v with side := v'.side }
  sell : upper v'.side = "SELL" ↔ upper v.side = "BUY"
  buy : upper v'.side = "BUY" ↔ upper v.side = "SELL"

variable {upper : String → String} {v v' : StrategyVote}

theorem clamp_nonneg (x : ℚ) : 0 ≤ clamp x := le_max_left _ _

theorem clamp_le_one (x : ℚ) : clamp x ≤ 1 := max_le zero_le_one (min_le_left _ _)

/-- What is left of the edge. -/
def StrategyVote.weight (v : StrategyVote) : ℚ := v.quality * (1 - clamp v.riskScore) / 100

theorem weight_nonneg (v : StrategyVote) : 0 ≤ v.weight := by
  have hquality : 0 ≤ v.quality :=
    mul_nonneg (mul_nonneg (clamp_nonneg _) (clamp_nonneg _)) (clamp_nonneg _)
  exact div_nonneg (mul_nonneg hquality (sub_nonneg.mpr (clamp_le_one _))) (by norm_num)

theorem score_eq (v : StrategyVote) :
    v.score upper = v.direction upper * v.expectedEdgeBps * v.weight := by
  unfold StrategyVote.score StrategyVote.weight
  ring

/-- A score is positive only if the side and the edge have one sign. -/
theorem countsFor_of_score_pos (h : 0 < v.score upper) : v.CountsFor upper .BUY := by
  rw [score_eq] at h
  have hsign : 0 < v.direction upper * v.expectedEdgeBps := by
    by_contra hnonpos
    have hle := mul_nonpos_of_nonpos_of_nonneg (not_lt.mp hnonpos) (weight_nonneg v)
    exact absurd h (not_lt.mpr hle)
  unfold StrategyVote.direction at hsign
  split_ifs at hsign with hbuy hsell
  · exact .inl ⟨hbuy, by linarith⟩
  · exact .inr ⟨hsell, by linarith⟩
  · linarith

theorem countsFor_of_score_neg (h : v.score upper < 0) : v.CountsFor upper .SELL := by
  rw [score_eq] at h
  have hsign : v.direction upper * v.expectedEdgeBps < 0 := by
    by_contra hnonneg
    exact absurd h (not_lt.mpr (mul_nonneg (not_lt.mp hnonneg) (weight_nonneg v)))
  unfold StrategyVote.direction at hsign
  split_ifs at hsign with hbuy hsell
  · exact .inr ⟨hbuy, by linarith⟩
  · exact .inl ⟨hsell, by linarith⟩
  · linarith

theorem Mirrors.direction (h : Mirrors upper v v') :
    v'.direction upper = -v.direction upper := by
  unfold StrategyVote.direction
  rw [if_congr h.buy rfl rfl, if_congr h.sell rfl rfl]
  by_cases hbuy : upper v.side = "BUY"
  · have hsell : upper v.side ≠ "SELL" := by
      rw [hbuy]
      decide
    rw [if_neg hsell, if_pos hbuy, if_pos hbuy]
  · by_cases hsell : upper v.side = "SELL"
    · rw [if_pos hsell, if_neg hbuy, if_pos hsell, neg_neg]
    · rw [if_neg hsell, if_neg hbuy, if_neg hbuy, if_neg hsell, neg_zero]

theorem Mirrors.score (h : Mirrors upper v v') : v'.score upper = -v.score upper := by
  have hedge : v'.expectedEdgeBps = v.expectedEdgeBps := by rw [h.rest]
  have hweight : v'.weight = v.weight := by rw [h.rest]; rfl
  rw [score_eq, score_eq, h.direction, hedge, hweight]
  ring

/-! ## 3. What the votes decide -/

section Decision

variable {votes votes' : List StrategyVote} {net gross minScore maxConflict : ℚ}

/-- What is done, if anything is. -/
theorem ofSums_action
    (h : (ConflictDecision.ofSums net gross minScore maxConflict).action ≠ .NO_TRADE) :
    minScore ≤ |net| ∧ (ConflictDecision.ofSums net gross minScore maxConflict).action =
      if 0 < net then .BUY else .SELL := by
  unfold ConflictDecision.ofSums at h ⊢
  dsimp only at h ⊢
  by_cases hno : (maxConflict < if gross = 0 then 0 else 1 - |net| / gross) ∨ |net| < minScore
  · rw [if_pos hno] at h
    exact absurd rfl h
  · rw [if_neg hno]
    exact ⟨not_lt.mp (not_or.mp hno).2, rfl⟩

theorem ofSums_buy (h : (ConflictDecision.ofSums net gross minScore maxConflict).action = .BUY) :
    0 < net := by
  obtain ⟨-, haction⟩ := ofSums_action (h.trans_ne nofun)
  by_contra hpos
  rw [h, if_neg hpos] at haction
  exact nomatch haction

theorem ofSums_sell (hmin : 0 < minScore)
    (h : (ConflictDecision.ofSums net gross minScore maxConflict).action = .SELL) : net < 0 := by
  obtain ⟨hle, haction⟩ := ofSums_action (h.trans_ne nofun)
  rcases lt_or_gt_of_ne (abs_pos.mp (hmin.trans_le hle)) with hneg | hpos
  · exact hneg
  · rw [h, if_pos hpos] at haction
    exact nomatch haction

theorem ofSums_neg (hmin : 0 < minScore) :
    (ConflictDecision.ofSums (-net) gross minScore maxConflict).action =
      (ConflictDecision.ofSums net gross minScore maxConflict).action.swap := by
  unfold ConflictDecision.ofSums
  dsimp only
  rw [abs_neg]
  by_cases hno : (maxConflict < if gross = 0 then 0 else 1 - |net| / gross) ∨ |net| < minScore
  · rw [if_pos hno, if_pos hno]
    rfl
  · rw [if_neg hno, if_neg hno]
    rw [not_or, not_lt, not_lt] at hno
    rcases lt_or_gt_of_ne (abs_pos.mp (hmin.trans_le hno.2)) with hneg | hpos
    · rw [if_pos (neg_pos.mpr hneg), if_neg hneg.not_gt]
      rfl
    · rw [if_neg (neg_neg_of_pos hpos).not_gt, if_pos hpos]
      rfl

theorem resolveConflict_of_ne_nil (h : votes ≠ []) :
    resolveConflict upper votes minScore maxConflict =
      .ofSums (votes.map (·.score upper)).sum ((votes.map (·.score upper)).map abs).sum minScore
        maxConflict := by
  rw [resolveConflict, if_neg h]

theorem ne_nil_of_action
    (h : (resolveConflict upper votes minScore maxConflict).action ≠ .NO_TRADE) : votes ≠ [] := by
  rintro rfl
  exact h rfl

/-- **Some vote counts for what is done.** -/
theorem exists_countsFor {action : Action} (hmin : 0 < minScore) (hno : action ≠ .NO_TRADE)
    (h : (resolveConflict upper votes minScore maxConflict).action = action) :
    ∃ v ∈ votes, v.CountsFor upper action := by
  rw [resolveConflict_of_ne_nil (ne_nil_of_action (h ▸ hno))] at h
  cases action with
  | NO_TRADE => exact absurd rfl hno
  | BUY =>
    have hsum : (votes.map fun _ => (0 : ℚ)).sum < (votes.map (·.score upper)).sum := by
      simpa using ofSums_buy h
    obtain ⟨v, hv, hscore⟩ := List.exists_lt_of_sum_lt _ _ hsum
    exact ⟨v, hv, countsFor_of_score_pos hscore⟩
  | SELL =>
    have hsum : (votes.map (·.score upper)).sum < (votes.map fun _ => (0 : ℚ)).sum := by
      simpa using ofSums_sell hmin h
    obtain ⟨v, hv, hscore⟩ := List.exists_lt_of_sum_lt _ _ hsum
    exact ⟨v, hv, countsFor_of_score_neg hscore⟩

/-- **The order is of no matter.** -/
theorem resolveConflict_perm (h : votes.Perm votes') :
    resolveConflict upper votes' minScore maxConflict =
      resolveConflict upper votes minScore maxConflict := by
  have hscored := h.map (·.score upper)
  rcases eq_or_ne votes [] with rfl | hne
  · rw [List.nil_perm.mp h]
  · have hne' : votes' ≠ [] := fun hnil => hne (List.perm_nil.mp (hnil ▸ h))
    rw [resolveConflict_of_ne_nil hne, resolveConflict_of_ne_nil hne', hscored.sum_eq,
      (hscored.map abs).sum_eq]

theorem scored_mirrors (h : List.Forall₂ (Mirrors upper) votes votes') :
    votes'.map (·.score upper) = (votes.map (·.score upper)).map Neg.neg := by
  induction h with
  | nil => rfl
  | cons hv _ ih => rw [List.map_cons, List.map_cons, List.map_cons, hv.score, ih]

/-- **Exchanging the sides** exchanges what is done. -/
theorem action_mirrors (hmin : 0 < minScore) (h : List.Forall₂ (Mirrors upper) votes votes') :
    (resolveConflict upper votes' minScore maxConflict).action =
      (resolveConflict upper votes minScore maxConflict).action.swap := by
  cases h with
  | nil => rfl
  | cons hv hvs =>
    have hsum : ∀ xs : List ℚ, (xs.map Neg.neg).sum = -xs.sum := fun xs =>
      (map_list_sum (-AddMonoidHom.id ℚ) xs).symm
    have habs : ∀ xs : List ℚ, (xs.map Neg.neg).map abs = xs.map abs := fun xs => by
      rw [List.map_map]
      exact List.map_congr_left fun x _ => abs_neg x
    rw [resolveConflict_of_ne_nil (List.cons_ne_nil _ _),
      resolveConflict_of_ne_nil (List.cons_ne_nil _ _), scored_mirrors (.cons hv hvs), hsum, habs,
      ofSums_neg hmin]

/-- **What an action needs**: a vote that counts for it. -/
theorem resolve_faithful (upper : String → String) (votes : List StrategyVote)
    (minScore maxConflict : ℚ) (hmin : 0 < minScore) :
    (∀ action, action ≠ .NO_TRADE →
        (resolveConflict upper votes minScore maxConflict).action = action →
          ∃ v ∈ votes, v.CountsFor upper action) ∧
      (∀ votes', votes.Perm votes' → resolveConflict upper votes' minScore maxConflict =
        resolveConflict upper votes minScore maxConflict) ∧
      ∀ votes', List.Forall₂ (Mirrors upper) votes votes' →
        (resolveConflict upper votes' minScore maxConflict).action =
          (resolveConflict upper votes minScore maxConflict).action.swap :=
  ⟨fun _ hno h => exists_countsFor hmin hno h, fun _ h => resolveConflict_perm h,
    fun _ h => action_mirrors hmin h⟩

end Decision

/-! ## 4. Votes for the side -/

def Action.side : Action → String
  | NO_TRADE => ""
  | BUY => "BUY"
  | SELL => "SELL"

/-- **The votes are resolved faithfully**: what is done has a vote for its side, whatever the order
is, and the other thing is done with the sides exchanged. -/
structure Faithful (upper : String → String) (votes : List StrategyVote)
    (minScore maxConflict : ℚ) : Prop where
  backed : ∀ action, action ≠ .NO_TRADE →
    (resolveConflict upper votes minScore maxConflict).action = action →
      ∃ v ∈ votes, upper v.side = action.side
  ordered : ∀ votes', votes.Perm votes' → resolveConflict upper votes' minScore maxConflict =
    resolveConflict upper votes minScore maxConflict
  mirrored : ∀ votes', List.Forall₂ (Mirrors upper) votes votes' →
    (resolveConflict upper votes' minScore maxConflict).action =
      (resolveConflict upper votes minScore maxConflict).action.swap

/-- What the votes for a side expect together, each with its weight. -/
def edgeOf (upper : String → String) (votes : List StrategyVote) (side : String) : ℚ :=
  ((votes.filter fun v => upper v.side = side).map fun v => v.expectedEdgeBps * v.weight).sum

/-- Where all votes are for one side, they do not expect to lose by it. -/
def Sincere (upper : String → String) (votes : List StrategyVote) : Prop :=
  ∀ action : Action, action ≠ .NO_TRADE → (∀ v ∈ votes, upper v.side ≠ action.side) →
    0 ≤ edgeOf upper votes action.swap.side

section Sides

variable {votes : List StrategyVote} {side : String}

theorem edgeOf_of_forall_ne (h : ∀ v ∈ votes, upper v.side ≠ side) :
    edgeOf upper votes side = 0 := by
  have hnone : votes.filter (fun v => upper v.side = side) = [] :=
    List.filter_eq_nil_iff.mpr fun v hv => by simpa using h v hv
  rw [edgeOf, hnone]
  rfl

/-- **The sum of the scores** is what the one side expects without what the other does. -/
theorem sum_score (votes : List StrategyVote) :
    (votes.map (·.score upper)).sum = edgeOf upper votes "BUY" - edgeOf upper votes "SELL" := by
  induction votes with
  | nil => simp [edgeOf]
  | cons v votes ih =>
    rw [List.map_cons, List.sum_cons, ih, score_eq, StrategyVote.direction, edgeOf, edgeOf, edgeOf,
      edgeOf, List.filter_cons, List.filter_cons]
    by_cases hbuy : upper v.side = "BUY"
    · simp [hbuy]
      ring
    · by_cases hsell : upper v.side = "SELL"
      · simp [hsell]
        ring
      · simp [hbuy, hsell]

/-- Votes without a negative edge are sincere. -/
theorem sincere_of_nonneg (h : ∀ v ∈ votes, 0 ≤ v.expectedEdgeBps) : Sincere upper votes := by
  intro action _ _
  refine List.sum_nonneg fun x hx => ?_
  obtain ⟨v, hv, rfl⟩ := List.mem_map.mp hx
  exact mul_nonneg (h v (List.mem_filter.mp hv).1) (weight_nonneg v)

/-- With these thresholds any sum that is not zero is acted on. -/
theorem resolve_of_net (h : (votes.map (·.score upper)).sum ≠ 0) :
    (resolveConflict upper votes |(votes.map (·.score upper)).sum| 1).action =
      if 0 < (votes.map (·.score upper)).sum then .BUY else .SELL := by
  have hne : votes ≠ [] := by
    rintro rfl
    exact h rfl
  have hgross : 0 ≤ ((votes.map (·.score upper)).map abs).sum := by
    refine List.sum_nonneg fun x hx => ?_
    obtain ⟨y, -, rfl⟩ := List.mem_map.mp hx
    exact abs_nonneg y
  have hconflict : (if ((votes.map (·.score upper)).map abs).sum = 0 then 0
      else 1 - |(votes.map (·.score upper)).sum| / ((votes.map (·.score upper)).map abs).sum) ≤
        (1 : ℚ) := by
    split_ifs
    · exact zero_le_one
    · exact sub_le_self _ (div_nonneg (abs_nonneg _) hgross)
  rw [resolveConflict_of_ne_nil hne, ConflictDecision.ofSums,
    if_neg (not_or.mpr ⟨not_lt.mpr hconflict, lt_irrefl _⟩)]

/-- **The votes are resolved faithfully** at all thresholds if and only if they are sincere. -/
theorem faithful_iff_sincere (upper : String → String) (votes : List StrategyVote) :
    (∀ minScore maxConflict, 0 < minScore → Faithful upper votes minScore maxConflict) ↔
      Sincere upper votes := by
  constructor
  · intro h action hno hnone
    by_contra hneg
    have hzero := edgeOf_of_forall_ne hnone
    have hnet := @sum_score upper votes
    -- the sum has the sign of the side that no vote has
    have hact : (votes.map (·.score upper)).sum ≠ 0 ∧
        (if 0 < (votes.map (·.score upper)).sum then Action.BUY else .SELL) = action := by
      cases action with
      | NO_TRADE => exact absurd rfl hno
      | BUY =>
        have hpos : 0 < (votes.map (·.score upper)).sum := by
          simp only [Action.side, Action.swap] at hzero hneg
          linarith
        exact ⟨hpos.ne', if_pos hpos⟩
      | SELL =>
        have hpos : (votes.map (·.score upper)).sum < 0 := by
          simp only [Action.side, Action.swap] at hzero hneg
          linarith
        exact ⟨hpos.ne, if_neg hpos.not_gt⟩
    obtain ⟨v, hv, hside⟩ := (h _ 1 (abs_pos.mpr hact.1)).backed action hno
      ((resolve_of_net hact.1).trans hact.2)
    exact hnone v hv hside
  · intro h minScore maxConflict hmin
    obtain ⟨-, hperm, hmirrors⟩ := resolve_faithful upper votes minScore maxConflict hmin
    refine ⟨fun action hno haction => ?_, hperm, hmirrors⟩
    by_contra hnone
    push Not at hnone
    have hzero := edgeOf_of_forall_ne hnone
    have hedge := h action hno hnone
    have hnet := @sum_score upper votes
    rw [resolveConflict_of_ne_nil (ne_nil_of_action (haction ▸ hno))] at haction
    cases action with
    | NO_TRADE => exact hno rfl
    | BUY =>
      have hpos := ofSums_buy haction
      simp only [Action.side, Action.swap] at hzero hedge
      linarith
    | SELL =>
      have hpos := ofSums_sell hmin haction
      simp only [Action.side, Action.swap] at hzero hedge
      linarith

end Sides

/-- A strategy that would sell, and expects to lose by it. -/
def reluctant : StrategyVote := ⟨"trend", "SELL", -100, 1, 1, 1, 0, 0, 0⟩

/-- What is bought has no vote for its side. -/
theorem bought_on_a_sell_vote : (resolveConflict id [reluctant]).action = .BUY ∧
    ∀ v ∈ [reluctant], id v.side ≠ "BUY" := by
  decide +kernel

end Kripto.Strategy.Ensemble
