/-
# One order's projection among others

Trade ids are unique within a symbol only, and `seen_trades` holds bare ids.  Two platform
orders whose events are interleaved are projected as if each were alone

* exactly if no event of an order carries a trade id that the projector has seen although the
  order's own projection has not (`projected_alone_iff`).

`fill_suppressed` is the other case: two fills with trade id 1, on two symbols.
-/
import Kripto.Effect.Purge
import Kripto.Stream.Projector

namespace Kripto.Stream

open Effect PrivateStreamProjector

variable {s p : PrivateStreamProjector} {a : String} {zs : List UserEvent}

/-! ## 1. The events of an order -/

/-- Is this an execution report of the order `a`? -/
def ofOrder (a : String) : UserEvent → Bool
  | .executionReport event => event.clientOrderId = a
  | _ => false

/-- The trade id of an event has been seen by `s` only if `p` has seen it, too. -/
def SeenInBoth (s p : PrivateStreamProjector) : UserEvent → Prop
  | .executionReport event => s.hasSeen event = true → p.hasSeen event = true
  | _ => True

instance : ∀ k : UserEvent, Decidable (SeenInBoth s p k)
  | .executionReport _ => inferInstanceAs (Decidable (_ → _))
  | .balancePosition .. | .balanceUpdate .. | .futuresPositionUpdate ..
  | .streamTerminated _ | .unknownUserEvent _ => isTrue trivial

/-- `p` stands where `s` does as far as the platform order `a` is concerned. -/
structure SameFor (a : String) (s p : PrivateStreamProjector) : Prop where
  platform : s.platform a = true
  clientOrderPrefix : s.clientOrderPrefix = p.clientOrderPrefix
  orderStates : s.orderStates.lookup a = p.orderStates.lookup a
  orderProgress : s.orderProgress.lookup a = p.orderProgress.lookup a
  seenTrades : p.seenTrades ⊆ s.seenTrades

namespace SameFor

theorem platform_right (h : SameFor a s p) : p.platform a = true := by
  rw [← h.platform, PrivateStreamProjector.platform, PrivateStreamProjector.platform,
    h.clientOrderPrefix]

theorem hasSeen_mono (h : SameFor a s p) {event : ExecutionReport}
    (hseen : p.hasSeen event = true) : s.hasSeen event = true := by
  rw [hasSeen_iff] at hseen ⊢
  obtain ⟨t, ht, hne, hmem⟩ := hseen
  exact ⟨t, ht, hne, h.seenTrades hmem⟩

/-- The events of others are not felt. -/
theorem foreign (h : SameFor a s p) {k : UserEvent} (hk : ofOrder a k = false) :
    SameFor a (s.project k).2 p := by
  cases k with
  | executionReport event =>
    have hne : a ≠ event.clientOrderId := fun heq => by simp [ofOrder, heq] at hk
    rcases projectReport_cases s event with
      ⟨-, -, heq⟩ | ⟨-, -, -, heq⟩ | ⟨-, -, _, _, -, -, heq⟩ | ⟨-, -, -, heq⟩
    · rwa [project, heq]
    · rwa [project, heq]
    · rwa [project, heq]
    · rw [project, heq]
      constructor
      · exact h.platform
      · exact h.clientOrderPrefix
      · rw [applied, AList.lookup_insert_ne hne, h.orderStates]
      · rw [applied, AList.lookup_insert_ne hne, h.orderProgress]
      · exact h.seenTrades.trans (subset_addTrade _ _)
  | balancePosition | balanceUpdate | futuresPositionUpdate | streamTerminated
  | unknownUserEvent => exact ⟨h.platform, h.clientOrderPrefix, h.orderStates, h.orderProgress,
      h.seenTrades⟩

/-- Two projectors in the same place for an order answer its report alike, if they agree on
whether they have seen its trade. -/
theorem projectReport (h : SameFor a s p) {event : ExecutionReport}
    (hid : event.clientOrderId = a) (hseen : s.hasSeen event = p.hasSeen event) :
    (s.projectReport event).1 = (p.projectReport event).1 ∧
      SameFor a (s.projectReport event).2 (p.projectReport event).2 := by
  have hs : s.platform event.clientOrderId = true := by rw [hid, h.platform]
  have hp : p.platform event.clientOrderId = true := by rw [hid, h.platform_right]
  have hprogress : s.orderProgress.lookup event.clientOrderId =
      p.orderProgress.lookup event.clientOrderId := by rw [hid, h.orderProgress]
  unfold PrivateStreamProjector.projectReport
  simp only [hs, hp, hseen, hprogress, not_true_eq_false, if_false]
  split
  · exact ⟨rfl, h⟩
  · split
    · exact ⟨rfl, h⟩
    · refine ⟨rfl, h.platform, h.clientOrderPrefix, ?_, ?_, addTrade_mono h.seenTrades _⟩
      · rw [applied, applied, hid, AList.lookup_insert, AList.lookup_insert]
      · rw [applied, applied, hid, AList.lookup_insert, AList.lookup_insert]

theorem hasSeen_eq (h : SameFor a s p) {event : ExecutionReport}
    (hboth : SeenInBoth s p (.executionReport event)) : s.hasSeen event = p.hasSeen event := by
  rw [Bool.eq_iff_iff]
  exact ⟨hboth, h.hasSeen_mono⟩

end SameFor

/-! ## 2. Unwinding the projector -/

theorem eq_executionReport {k : UserEvent} (hk : ofOrder a k = true) :
    ∃ event, k = .executionReport event ∧ event.clientOrderId = a := by
  cases k with
  | executionReport event => exact ⟨event, rfl, by simpa [ofOrder] using hk⟩
  | balancePosition | balanceUpdate | futuresPositionUpdate | streamTerminated
  | unknownUserEvent => simp [ofOrder] at hk

/-- **The projector unwinds** for every order. -/
theorem unwinding (a : String) : Unwinding project (ofOrder a) (SameFor a) SeenInBoth where
  foreign h hk := h.foreign hk
  answer h hk hboth := by
    obtain ⟨event, rfl, hid⟩ := eq_executionReport hk
    exact (h.projectReport hid (h.hasSeen_eq hboth)).1
  next h hk hboth := by
    obtain ⟨event, rfl, hid⟩ := eq_executionReport hk
    exact (h.projectReport hid (h.hasSeen_eq hboth)).2

/-- A trade seen in one projector only shows in the classification. -/
theorem seenInBoth_of_classification {k : UserEvent} (h : SameFor a s p)
    (hk : ofOrder a k = true)
    (heq : (s.project k).1.classification = (p.project k).1.classification) :
    SeenInBoth s p k := by
  obtain ⟨event, rfl, hid⟩ := eq_executionReport hk
  intro hseen
  have hs : (s.projectReport event).1.classification = .DUPLICATE_FILL := by
    simp [PrivateStreamProjector.projectReport, hid, h.platform, hseen]
  rw [project, project, hs] at heq
  rcases projectReport_cases p event with
    ⟨-, hunknown, -⟩ | ⟨-, hp, -⟩ | ⟨-, -, _, _, -, hobjection, hresult⟩ | ⟨-, -, -, hresult⟩
  · simp [hunknown] at heq
  · exact hp
  · rw [hresult] at heq
    exact absurd heq.symm (classification_of_objection hobjection).2.1
  · simp [hresult, appliedResult] at heq

theorem ofOrder_ne {b : String} {k : UserEvent} (hne : b ≠ a) (hk : ofOrder b k = true) :
    ofOrder a k = false := by
  obtain ⟨event, rfl, hid⟩ := eq_executionReport hk
  simpa [ofOrder, hid] using hne

/-! ## 3. Two orders -/

/-- The event stream of a platform order. -/
structure OrderStream (clientOrderPrefix : String) where
  clientOrderId : String
  platform : (fresh clientOrderPrefix).platform clientOrderId = true
  events : List UserEvent
  own : ∀ k ∈ events, ofOrder clientOrderId k = true

namespace OrderStream

variable {clientOrderPrefix : String} (x y : OrderStream clientOrderPrefix)

/-- In the projection of `zs`, the order `x` gets the classifications and the final entries of
the projection of its own stream. -/
structure ProjectedAsAlone (zs : List UserEvent) : Prop where
  classifications :
    (answersTo project (ofOrder x.clientOrderId) (fresh clientOrderPrefix) zs).map
        (·.classification) =
      (answersTo project (ofOrder x.clientOrderId) (fresh clientOrderPrefix) x.events).map
        (·.classification)
  orderStates : (leaves project (fresh clientOrderPrefix) zs).orderStates.lookup
      x.clientOrderId =
    (leaves project (fresh clientOrderPrefix) x.events).orderStates.lookup x.clientOrderId
  orderProgress : (leaves project (fresh clientOrderPrefix) zs).orderProgress.lookup
      x.clientOrderId =
    (leaves project (fresh clientOrderPrefix) x.events).orderProgress.lookup x.clientOrderId

/-- Whenever an event of the order `x` arrives in `zs`, its trade id has been seen by the
projector only if the projection of the order's own earlier events has seen it. -/
def OnlyOwnTrades (zs : List UserEvent) : Prop :=
  Undisturbed project (ofOrder x.clientOrderId) SeenInBoth (fresh clientOrderPrefix)
    (fresh clientOrderPrefix) zs

instance (zs : List UserEvent) : Decidable (x.OnlyOwnTrades zs) := by
  unfold OnlyOwnTrades
  infer_instance

variable {x y}

theorem sameFor_fresh : SameFor x.clientOrderId (fresh clientOrderPrefix)
    (fresh clientOrderPrefix) :=
  ⟨x.platform, rfl, rfl, rfl, Finset.Subset.refl _⟩

/-- One order among any other events. -/
theorem projectedAsAlone_iff (hown : zs.filter (ofOrder x.clientOrderId) = x.events) :
    x.ProjectedAsAlone zs ↔ x.OnlyOwnTrades zs := by
  have hiff := (unwinding x.clientOrderId).undisturbed_iff
    ProjectionResult.classification seenInBoth_of_classification sameFor_fresh zs
  rw [hown] at hiff
  constructor
  · intro h
    exact hiff.mp h.classifications
  · intro h
    have hsame := (unwinding x.clientOrderId).leaves sameFor_fresh h
    rw [hown] at hsame
    exact ⟨hiff.mpr h, hsame.orderStates, hsame.orderProgress⟩

/-- **When two interleaved orders are projected as if each were alone.** -/
theorem projected_alone_iff (hne : x.clientOrderId ≠ y.clientOrderId)
    (h : Interleaved x.events y.events zs) :
    x.ProjectedAsAlone zs ∧ y.ProjectedAsAlone zs ↔
      x.OnlyOwnTrades zs ∧ y.OnlyOwnTrades zs := by
  have hx : zs.filter (ofOrder x.clientOrderId) = x.events :=
    h.filter_left x.own fun k hk => ofOrder_ne hne.symm (y.own k hk)
  have hy : zs.filter (ofOrder y.clientOrderId) = y.events :=
    h.swap.filter_left y.own fun k hk => ofOrder_ne hne (x.own k hk)
  rw [projectedAsAlone_iff hx, projectedAsAlone_iff hy]

end OrderStream

/-! ## 4. Fills on two symbols -/

/-- The symbol of an execution report. -/
def symbolOf : UserEvent → Option String
  | .executionReport event => some event.symbol
  | _ => none

/-- A fill of one unit. -/
def fill (symbol clientOrderId tradeId : String) (eventTimeMs : ℤ) : UserEvent :=
  .executionReport
    { symbol, clientOrderId, side := "BUY", orderType := "LIMIT", executionType := "TRADE"
      orderStatus := "FILLED", exchangeOrderId := "1", lastQty := 1, cumulativeQty := 1
      lastPrice := 1, fee := 0, feeAsset := none, tradeId := some tradeId, eventTimeMs }

/-- An order on BTCUSDT, filled by that symbol's trade 1. -/
def btcOrder : OrderStream defaultPrefix :=
  ⟨"ctp-1", by decide, [fill "BTCUSDT" "ctp-1" "1" 1000], by decide⟩

/-- An order on ETHUSDT, filled by the trade `tradeId` of that symbol. -/
def ethOrder (tradeId : String) : OrderStream defaultPrefix :=
  ⟨"ctp-2", by decide, [fill "ETHUSDT" "ctp-2" tradeId 2000], by simp [ofOrder, fill]⟩

/-- Both fills, in the order of their times. -/
def bothFills (tradeId : String) : List UserEvent :=
  [fill "BTCUSDT" "ctp-1" "1" 1000, fill "ETHUSDT" "ctp-2" tradeId 2000]

theorem interleaved_bothFills (tradeId : String) :
    Interleaved btcOrder.events (ethOrder tradeId).events (bothFills tradeId) :=
  .left (.right .done)

/-- With trade ids of their own, both are projected as if alone. -/
theorem projected_alone_iff_twoTrades :
    btcOrder.ProjectedAsAlone (bothFills "2") ∧
      (ethOrder "2").ProjectedAsAlone (bothFills "2") :=
  (OrderStream.projected_alone_iff (by decide) (interleaved_bothFills "2")).mpr
    (by decide)

/-- **Trade 1 of ETHUSDT is taken for trade 1 of BTCUSDT**: the second order's only fill is
answered `DUPLICATE_FILL` and leaves no entry. -/
theorem fill_suppressed :
    ∃ (x y : OrderStream defaultPrefix) (zs : List UserEvent),
      x.clientOrderId ≠ y.clientOrderId ∧ Interleaved x.events y.events zs ∧
      (∀ k ∈ x.events, symbolOf k = some "BTCUSDT") ∧
      (∀ k ∈ y.events, symbolOf k = some "ETHUSDT") ∧
      ¬ (x.ProjectedAsAlone zs ∧ y.ProjectedAsAlone zs) := by
  refine ⟨btcOrder, ethOrder "1", bothFills "1", by decide, interleaved_bothFills "1",
    by decide, by decide, ?_⟩
  rintro ⟨-, h⟩
  have hentry := h.orderStates
  revert hentry
  decide

end Kripto.Stream
