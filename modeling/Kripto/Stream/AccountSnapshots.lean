/-
# Account snapshots and the times they are of

Order events are protected against late delivery.  A `BalancePosition` or a
`FuturesPositionUpdate` is not: the projector takes over what it says, whenever it arrives, and
of a `FuturesPositionUpdate` the positions only.

* `snapshots_latest_iff`: after any events, the balance of an asset (the position of a symbol) is
  what the event of the greatest time says of it, exactly if the applied snapshot that was
  delivered last says the same.

`late_snapshot_wins` is an asset whose older balance arrives after the newer one.
-/
import Kripto.Stream.Forward

namespace Kripto.Stream

open Effect PrivateStreamProjector

/-! ## 1. What events say -/

/-- A value with the time it is of. -/
structure Stamped (ν : Type) where
  time : ℤ
  value : ν
  deriving DecidableEq

/-- A balance of an asset. -/
inductive AssetBalance
  | spot (free locked : ℚ)
  | wallet (balance : ℚ)
  deriving DecidableEq

/-- What an event says of the balance of an asset. -/
def balanceMention (asset : String) : UserEvent → Option (Stamped AssetBalance)
  | .balancePosition balances t => (balances.lookup asset).map fun v => ⟨t, .spot v.1 v.2⟩
  | .futuresPositionUpdate _ balances t => (balances.lookup asset).map fun q => ⟨t, .wallet q⟩
  | _ => none

/-- What an event says of the position in a symbol. -/
def positionMention (symbol : String) : UserEvent → Option (Stamped ℚ)
  | .futuresPositionUpdate positions _ t => (positions.lookup symbol).map fun q => ⟨t, q⟩
  | _ => none

/-- Is this the balance of a `BalancePosition`? -/
def AssetBalance.isSpot : AssetBalance → Bool
  | .spot .. => true
  | .wallet _ => false

/-- The balance the projector holds. -/
def heldBalance (s : PrivateStreamProjector) (asset : String) : Option AssetBalance :=
  (s.balances.lookup asset).map fun v => .spot v.1 v.2

variable {ν : Type}

/-- None of the values is of a later time. -/
def Stamped.Greatest (mentions : List (Stamped ν)) (u : Stamped ν) : Prop :=
  u ∈ mentions ∧ ∀ v ∈ mentions, v.time ≤ u.time

/-- This is what the mention of the greatest time says, or nothing if there is no mention. -/
def IsLatest (held : Option ν) (mentions : List (Stamped ν)) : Prop :=
  (mentions = [] → held = none) ∧ ∀ u : Stamped ν, u.Greatest mentions → held = some u.value

/-- The mention that was delivered last, of those that are applied, says what the mention of the
greatest time says. -/
def LastIsLatest (applied mentions : List (Stamped ν)) : Prop :=
  ∀ u : Stamped ν, u.Greatest mentions → ∃ w, applied.getLast? = some w ∧ w.value = u.value

theorem isLatest_iff {applied mentions : List (Stamped ν)} {held : Option ν}
    (hheld : held = applied.getLast?.map (·.value)) (hsub : applied.Sublist mentions) :
    IsLatest held mentions ↔ LastIsLatest applied mentions := by
  subst hheld
  constructor
  · rintro ⟨-, h⟩ u hu
    simpa using h u hu
  · intro h
    refine ⟨fun hnone => ?_, fun u hu => by simpa using h u hu⟩
    subst hnone
    rw [List.sublist_nil.mp hsub]
    rfl

/-! ## 2. What the projector takes over -/

theorem lookup_union {κ : Type} [DecidableEq κ] (t u : Table κ ν) (k : κ) :
    (t ∪ u).lookup k = (t.lookup k).or (u.lookup k) := by
  by_cases hk : k ∈ t
  · obtain ⟨v, hv⟩ := Option.isSome_iff_exists.mp (AList.lookup_isSome.mpr hk)
    rw [AList.lookup_union_left hk, hv]
    rfl
  · rw [AList.lookup_union_right hk, AList.lookup_eq_none.mpr hk]
    rfl

/-- The balance after an event. -/
theorem heldBalance_project (s : PrivateStreamProjector) (k : UserEvent) (asset : String) :
    heldBalance (s.project k).2 asset =
      (((balanceMention asset k).filter (·.value.isSpot)).map (·.value)).or
        (heldBalance s asset) := by
  cases k with
  | executionReport event =>
    rcases projectReport_cases s event with
      ⟨-, -, heq⟩ | ⟨-, -, -, heq⟩ | ⟨-, -, _, _, -, -, heq⟩ | ⟨-, -, -, heq⟩ <;>
      rw [project, heq] <;> rfl
  | balancePosition balances t =>
    simp only [project, heldBalance, balanceMention, lookup_union]
    cases balances.lookup asset <;> rfl
  | futuresPositionUpdate positions balances t =>
    simp only [project, heldBalance, balanceMention]
    cases balances.lookup asset <;> rfl
  | balanceUpdate | streamTerminated | unknownUserEvent => rfl

theorem position_project (s : PrivateStreamProjector) (k : UserEvent) (symbol : String) :
    (s.project k).2.positions.lookup symbol =
      ((positionMention symbol k).map (·.value)).or (s.positions.lookup symbol) := by
  cases k with
  | executionReport event =>
    rcases projectReport_cases s event with
      ⟨-, -, heq⟩ | ⟨-, -, -, heq⟩ | ⟨-, -, _, _, -, -, heq⟩ | ⟨-, -, -, heq⟩ <;>
      rw [project, heq] <;> rfl
  | futuresPositionUpdate positions balances t =>
    simp only [project, positionMention, lookup_union]
    cases positions.lookup symbol <;> rfl
  | balancePosition | balanceUpdate | streamTerminated | unknownUserEvent => rfl

/-! ## 3. Runs -/

/-- What is held after a run whose every step takes over what is said, if anything is: what was
said last. -/
theorem held_calls (held : PrivateStreamProjector → Option ν)
    (said : UserEvent → Option (Stamped ν))
    (hstep : ∀ s k, held (s.project k).2 = ((said k).map (·.value)).or (held s))
    (l : Projection) (events : List UserEvent) :
    held (l.calls project events).now =
      ((events.filterMap said).getLast?.map (·.value)).or (held l.now) := by
  induction events generalizing l with
  | nil => rfl
  | cons k events ih =>
    rw [Log.calls_cons, ih, Log.call_now, hstep]
    cases hsaid : said k with
    | none => simp [hsaid]
    | some w => cases hlast : (events.filterMap said).getLast? <;>
        simp [hsaid, List.getLast?_cons, hlast]

/-- **When a snapshot is the latest one.** -/
theorem snapshots_latest_iff (clientOrderPrefix : String) (events : List UserEvent) :
    (∀ asset, IsLatest (heldBalance (projection clientOrderPrefix events).now asset)
        (events.filterMap (balanceMention asset)) ↔
      LastIsLatest ((events.filterMap (balanceMention asset)).filter (·.value.isSpot))
        (events.filterMap (balanceMention asset))) ∧
    ∀ symbol, IsLatest ((projection clientOrderPrefix events).now.positions.lookup symbol)
        (events.filterMap (positionMention symbol)) ↔
      LastIsLatest (events.filterMap (positionMention symbol))
        (events.filterMap (positionMention symbol)) := by
  refine ⟨fun asset => isLatest_iff ?_ List.filter_sublist, fun symbol =>
    isLatest_iff ?_ (List.Sublist.refl _)⟩
  · rw [projection, held_calls (heldBalance · asset)
      (fun k => (balanceMention asset k).filter (·.value.isSpot))
      (fun s k => heldBalance_project s k asset), ← List.filter_filterMap]
    exact Option.or_none
  · rw [projection, held_calls (·.positions.lookup symbol) (positionMention symbol)
      (fun s k => position_project s k symbol)]
    exact Option.or_none

/-! ## 4. A late balance -/

/-- A snapshot of the free balance of one asset. -/
def freeBalance (asset : String) (free : ℚ) (eventTimeMs : ℤ) : UserEvent :=
  .balancePosition (AList.singleton asset (free, 0)) eventTimeMs

/-- The balance of time 2000, and then the one of time 1000. -/
def lateBalance : List UserEvent := [freeBalance "USDT" 5 2000, freeBalance "USDT" 10 1000]

/-- **The older balance wins**, since it is delivered last. -/
theorem late_snapshot_wins :
    ((lateBalance.filterMap (balanceMention "USDT")).map (·.time)).Nodup ∧
      ¬ IsLatest (heldBalance (projection defaultPrefix lateBalance).now "USDT")
        (lateBalance.filterMap (balanceMention "USDT")) := by
  have hmentions : lateBalance.filterMap (balanceMention "USDT") =
      [⟨2000, .spot 5 0⟩, ⟨1000, .spot 10 0⟩] := by decide
  have hheld : heldBalance (projection defaultPrefix lateBalance).now "USDT" =
      some (.spot 10 0) := by decide
  rw [hmentions, hheld]
  refine ⟨by decide, fun h => ?_⟩
  have hlatest := h.2 ⟨2000, .spot 5 0⟩ ⟨by simp, by simp⟩
  simp at hlatest

end Kripto.Stream
