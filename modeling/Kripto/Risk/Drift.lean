/-
# Three comparisons of an account

`execution/reconciliation.py` compares two snapshots of an account for drift, and plans what to do
about each orphan order; `execution/account_boundary.py` compares them for external activity.

* `detectors_agree`: drift and external activity are found for the same snapshots, those that
  differ in an amount or an order; each order in the drift has one action, and if the snapshots
  change places what is unknown on one side is missing on the other.
-/
import Kripto.Effect.Sorting
import Kripto.Risk.Recovery
import Mathlib.Data.List.Dedup
import Mathlib.Data.String.Basic

namespace Kripto.Risk

open Effect Execution

/-! ## 1. Amounts -/

/-- A `Decimal` that is no signaling `NaN`; `Decimal(str(v))` is the same value again. -/
inductive Decimal
  | finite (q : ℚ)
  | infinite (negative : Bool)
  | nan

/-- `==`: a `NaN` is not equal to itself. -/
def Decimal.eq : Decimal → Decimal → Bool
  | .finite q, .finite q' => q = q'
  | .infinite negative, .infinite negative' => negative = negative'
  | _, _ => false

instance decimalBEq : BEq Decimal := ⟨Decimal.eq⟩

instance decimalZero : Zero Decimal := ⟨.finite 0⟩

/-- Which order a `set` is iterated in; no element is met twice. -/
class PySetOnce extends PySet where
  nodup_elements : ∀ inserted : List String, (elements inserted).Nodup

/-- `sorted(..)` of texts. -/
def sorted (texts : List String) : List String := texts.insertionSort (· ≤ ·)

/-! ## 2. `detect_external_activity` and `plan_orphan_order_recovery` -/

structure ExternalActivityEvidence where
  balanceDrift : List String
  positionDrift : List String
  unknownOrders : List String
  missingOrders : List String

namespace ExternalActivityEvidence

def detected (self : ExternalActivityEvidence) : Bool :=
  self.balanceDrift ≠ [] ∨ self.positionDrift ≠ [] ∨ self.unknownOrders ≠ [] ∨
    self.missingOrders ≠ []

/-- The evidence of the other side. -/
def swap (self : ExternalActivityEvidence) : ExternalActivityEvidence :=
  { self with unknownOrders := self.missingOrders, missingOrders := self.unknownOrders }

end ExternalActivityEvidence

structure OrphanOrderAction where
  orderId : String
  action : String
  reason : String
  deriving DecidableEq

section Detectors

variable [PySetOnce] (loc exch : AccountSnapshot Decimal)

/-- `a.open_order_ids-b.open_order_ids`. -/
def ordersBeyond (a b : AccountSnapshot Decimal) : List String :=
  PySet.elements (a.openOrderIds.filter (· ∉ b.openOrderIds))

def detectExternalActivity : ExternalActivityEvidence where
  balanceDrift := sorted (changedKeys loc.balances exch.balances)
  positionDrift := sorted (changedKeys loc.positions exch.positions)
  unknownOrders := sorted (ordersBeyond exch loc)
  missingOrders := sorted (ordersBeyond loc exch)

def planOrphanOrderRecovery (allowCancelUnknown : Bool) : List OrphanOrderAction :=
  ((sorted (ordersBeyond exch loc)).map fun oid =>
    ⟨oid, if allowCancelUnknown then "CANCEL_AND_RECONCILE" else "MANUAL_REVIEW",
      "EXCHANGE_ORDER_NOT_IN_LOCAL_LEDGER"⟩) ++
  (sorted (ordersBeyond loc exch)).map fun oid =>
    ⟨oid, "QUERY_HISTORY_AND_RECONCILE", "LOCAL_ACTIVE_ORDER_MISSING_ON_EXCHANGE"⟩

/-! ## 3. What they say -/

/-- What a dict holds under a key; a missing key is a zero. -/
def amount (amounts : List (String × Decimal)) (key : String) : Decimal :=
  (amounts.lookup key).getD 0

/-- The two snapshots have the same amounts and the same open orders. -/
structure SameAccount : Prop where
  balances : ∀ asset, amount loc.balances asset == amount exch.balances asset
  positions : ∀ symbol, amount loc.positions symbol == amount exch.positions symbol
  orders : ∀ oid, oid ∈ loc.openOrderIds ↔ oid ∈ exch.openOrderIds

/-- An item of a drift that is about an order. -/
def AboutOrder (item : String) : Prop :=
  ∃ oid, item = "UNKNOWN_ORDER:" ++ oid ∨ item = "MISSING_EXCHANGE_ORDER:" ++ oid

/-- The item that an action answers. -/
def OrphanOrderAction.item (a : OrphanOrderAction) : String :=
  if a.reason = "EXCHANGE_ORDER_NOT_IN_LOCAL_LEDGER" then "UNKNOWN_ORDER:" ++ a.orderId
  else "MISSING_EXCHANGE_ORDER:" ++ a.orderId

/-- Each order in the drift has one action, and nothing else has one. -/
structure OneActionEach (drift : List String) (actions : List OrphanOrderAction) : Prop where
  nodup : (actions.map (·.item)).Nodup
  mem_iff : ∀ item, item ∈ actions.map (·.item) ↔ item ∈ drift ∧ AboutOrder item

/-- The drift seen from the other side. -/
structure Mirrored (drift drift' : List String) : Prop where
  balance : ∀ asset, "UNKNOWN_BALANCE_CHANGE:" ++ asset ∈ drift ↔
    "UNKNOWN_BALANCE_CHANGE:" ++ asset ∈ drift'
  position : ∀ symbol, "UNKNOWN_POSITION_CHANGE:" ++ symbol ∈ drift ↔
    "UNKNOWN_POSITION_CHANGE:" ++ symbol ∈ drift'
  unknown : ∀ oid, "UNKNOWN_ORDER:" ++ oid ∈ drift ↔ "MISSING_EXCHANGE_ORDER:" ++ oid ∈ drift'
  missing : ∀ oid, "MISSING_EXCHANGE_ORDER:" ++ oid ∈ drift ↔ "UNKNOWN_ORDER:" ++ oid ∈ drift'

end Detectors

/-! ## 4. Items -/

/-- What the items of a drift begin with. -/
def TAGS : List String :=
  ["UNKNOWN_BALANCE_CHANGE:", "UNKNOWN_POSITION_CHANGE:", "UNKNOWN_ORDER:",
    "MISSING_EXCHANGE_ORDER:"]

/-- Tags differ in their first nine characters. -/
theorem tag_eq {p q : String} (hp : p ∈ TAGS) (hq : q ∈ TAGS)
    (h : p.toList.take 9 = q.toList.take 9) : p = q := by
  simp only [TAGS, List.mem_cons, List.not_mem_nil, or_false] at hp hq
  rcases hp with rfl | rfl | rfl | rfl <;> rcases hq with rfl | rfl | rfl | rfl <;>
    first | rfl | exact absurd h (by decide)

theorem nine_le_length {p : String} (hp : p ∈ TAGS) : 9 ≤ p.toList.length := by
  simp only [TAGS, List.mem_cons, List.not_mem_nil, or_false] at hp
  rcases hp with rfl | rfl | rfl | rfl <;> decide

/-- An item determines its tag and its name. -/
theorem tag_append_inj {p q a b : String} (hp : p ∈ TAGS) (hq : q ∈ TAGS) (h : p ++ a = q ++ b) :
    p = q ∧ a = b := by
  have hlist : p.toList ++ a.toList = q.toList ++ b.toList := by
    rw [← String.toList_append, ← String.toList_append, h]
  have htake := congrArg (List.take 9) hlist
  rw [List.take_append_of_le_length (nine_le_length hp),
    List.take_append_of_le_length (nine_le_length hq)] at htake
  obtain rfl := tag_eq hp hq htake
  exact ⟨rfl, String.toList_inj.mp (List.append_cancel_left hlist)⟩

theorem tag_append_mem {p q a : String} {names : List String} (hp : p ∈ TAGS) (hq : q ∈ TAGS) :
    p ++ a ∈ names.map (q ++ ·) ↔ p = q ∧ a ∈ names := by
  rw [List.mem_map]
  constructor
  · rintro ⟨b, hb, heq⟩
    obtain ⟨rfl, rfl⟩ := tag_append_inj hq hp heq
    exact ⟨rfl, hb⟩
  · rintro ⟨rfl, ha⟩
    exact ⟨a, ha, rfl⟩

/-! ## 5. Amounts and orders -/

theorem Decimal.beq_comm (v v' : Decimal) : (v == v') = (v' == v) := by
  change Decimal.eq v v' = Decimal.eq v' v
  cases v <;> cases v' <;> simp [Decimal.eq, eq_comm]

theorem antisymmOn_le (texts : List String) : AntisymmOn (· ≤ ·) texts :=
  fun _ _ _ _ => le_antisymm

theorem sorted_eq_nil_iff {texts : List String} : sorted texts = [] ↔ texts = [] := by
  rw [← List.length_eq_zero_iff, ← List.length_eq_zero_iff, sorted, List.length_insertionSort]

section Detectors

variable [PySetOnce] {loc exch : AccountSnapshot Decimal}

/-- **A key is found** exactly if the amounts under it differ. -/
theorem mem_changedKeys {a b : List (String × Decimal)} {key : String} :
    key ∈ changedKeys a b ↔ (amount a key != amount b key) = true := by
  rw [changedKeys, List.mem_filter, PySet.mem_elements, List.mem_append]
  constructor
  · exact fun h => h.2
  · intro hne
    refine ⟨?_, hne⟩
    by_contra hneither
    rw [not_or] at hneither
    have hzero : ∀ {c : List (String × Decimal)}, key ∉ c.map Prod.fst → amount c key = 0 := by
      intro c hc
      rw [amount, List.lookup_eq_none_iff.mpr]
      · rfl
      · intro e he
        rw [bne_iff_ne]
        rintro rfl
        exact hc (List.mem_map.mpr ⟨e, he, rfl⟩)
    rw [hzero hneither.1, hzero hneither.2] at hne
    exact absurd hne (by decide)

theorem changedKeys_eq_nil_iff {a b : List (String × Decimal)} :
    changedKeys a b = [] ↔ ∀ key, amount a key == amount b key := by
  rw [List.eq_nil_iff_forall_not_mem]
  refine forall_congr' fun key => ?_
  rw [mem_changedKeys, bne, Bool.not_eq_true', Bool.not_eq_false]

theorem mem_ordersBeyond {oid : String} :
    oid ∈ ordersBeyond exch loc ↔ oid ∈ exch.openOrderIds ∧ oid ∉ loc.openOrderIds := by
  rw [ordersBeyond, PySet.mem_elements, List.mem_filter, decide_eq_true_eq]

theorem ordersBeyond_eq_nil_iff :
    ordersBeyond exch loc = [] ↔ ∀ oid ∈ exch.openOrderIds, oid ∈ loc.openOrderIds := by
  rw [List.eq_nil_iff_forall_not_mem]
  refine forall_congr' fun oid => ?_
  rw [mem_ordersBeyond, not_and, not_not]

/-- The amounts that differ are the same from both sides. -/
theorem sorted_changedKeys_comm (a b : List (String × Decimal)) :
    sorted (changedKeys a b) = sorted (changedKeys b a) := by
  refine insertionSort_eq_of_mem_iff ((PySetOnce.nodup_elements _).filter _)
    ((PySetOnce.nodup_elements _).filter _) (fun key => ?_) (antisymmOn_le _)
  rw [mem_changedKeys, mem_changedKeys, bne, bne, Decimal.beq_comm]

/-- Nothing is found exactly between snapshots of the same account. -/
theorem detected_eq_false_iff :
    (detectExternalActivity loc exch).detected = false ↔ SameAccount loc exch := by
  have hdetected : (detectExternalActivity loc exch).detected = false ↔
      changedKeys loc.balances exch.balances = [] ∧ changedKeys loc.positions exch.positions = [] ∧
        ordersBeyond exch loc = [] ∧ ordersBeyond loc exch = [] := by
    simp only [ExternalActivityEvidence.detected, detectExternalActivity, decide_eq_false_iff_not,
      not_or, not_not, ne_eq, sorted_eq_nil_iff]
  rw [hdetected, changedKeys_eq_nil_iff, changedKeys_eq_nil_iff, ordersBeyond_eq_nil_iff,
    ordersBeyond_eq_nil_iff]
  constructor
  · rintro ⟨hbalances, hpositions, hunknown, hmissing⟩
    exact ⟨hbalances, hpositions, fun oid => ⟨hmissing oid, hunknown oid⟩⟩
  · rintro ⟨hbalances, hpositions, horders⟩
    exact ⟨hbalances, hpositions, fun oid => (horders oid).mpr, fun oid => (horders oid).mp⟩

/-- The four kinds of items. -/
theorem drift_eq : (reconcile loc exch).drift =
    (changedKeys loc.balances exch.balances).map ("UNKNOWN_BALANCE_CHANGE:" ++ ·) ++
    (changedKeys loc.positions exch.positions).map ("UNKNOWN_POSITION_CHANGE:" ++ ·) ++
    (ordersBeyond exch loc).map ("UNKNOWN_ORDER:" ++ ·) ++
    (ordersBeyond loc exch).map ("MISSING_EXCHANGE_ORDER:" ++ ·) := rfl

theorem drift_eq_nil_iff : (reconcile loc exch).drift = [] ↔ SameAccount loc exch := by
  rw [← detected_eq_false_iff, drift_eq]
  simp only [List.append_eq_nil_iff, List.map_eq_nil_iff, ExternalActivityEvidence.detected,
    detectExternalActivity, decide_eq_false_iff_not, not_or, not_not, ne_eq, sorted_eq_nil_iff,
    and_assoc]

/-- What is an item under its tag. -/
theorem tag_append_mem_drift {p : String} (hp : p ∈ TAGS) (name : String) :
    p ++ name ∈ (reconcile loc exch).drift ↔
      p = "UNKNOWN_BALANCE_CHANGE:" ∧ name ∈ changedKeys loc.balances exch.balances ∨
      p = "UNKNOWN_POSITION_CHANGE:" ∧ name ∈ changedKeys loc.positions exch.positions ∨
      p = "UNKNOWN_ORDER:" ∧ name ∈ ordersBeyond exch loc ∨
      p = "MISSING_EXCHANGE_ORDER:" ∧ name ∈ ordersBeyond loc exch := by
  rw [drift_eq, List.mem_append, List.mem_append, List.mem_append,
    tag_append_mem hp (by simp [TAGS]), tag_append_mem hp (by simp [TAGS]),
    tag_append_mem hp (by simp [TAGS]), tag_append_mem hp (by simp [TAGS]), or_assoc, or_assoc]

theorem mirrored : Mirrored (reconcile loc exch).drift (reconcile exch loc).drift := by
  constructor <;> intro name <;>
    rw [tag_append_mem_drift (by simp [TAGS]), tag_append_mem_drift (by simp [TAGS])] <;>
    simp [mem_changedKeys, bne, Decimal.beq_comm]

/-- **The orphan orders** have one action each. -/
theorem oneActionEach (allowCancelUnknown : Bool) :
    OneActionEach (reconcile loc exch).drift
      (planOrphanOrderRecovery loc exch allowCancelUnknown) := by
  have hitems : (planOrphanOrderRecovery loc exch allowCancelUnknown).map (·.item) =
      (sorted (ordersBeyond exch loc)).map ("UNKNOWN_ORDER:" ++ ·) ++
        (sorted (ordersBeyond loc exch)).map ("MISSING_EXCHANGE_ORDER:" ++ ·) := by
    rw [planOrphanOrderRecovery, List.map_append, List.map_map, List.map_map]
    rfl
  have hsorted : ∀ a b : AccountSnapshot Decimal, (sorted (ordersBeyond a b)).Nodup := by
    intro a b
    exact (List.perm_insertionSort _ _).nodup_iff.mpr (PySetOnce.nodup_elements _)
  have hinj : ∀ tag ∈ TAGS, Function.Injective (tag ++ · : String → String) := by
    intro tag htag oid oid' heq
    exact (tag_append_inj htag htag heq).2
  constructor
  · rw [hitems, List.nodup_append']
    refine ⟨(hsorted _ _).map (hinj _ (by simp [TAGS])),
      (hsorted _ _).map (hinj _ (by simp [TAGS])), ?_⟩
    intro item hunknown hmissing
    obtain ⟨oid, -, rfl⟩ := List.mem_map.mp hunknown
    rw [tag_append_mem (by simp [TAGS]) (by simp [TAGS])] at hmissing
    exact absurd hmissing.1 (by decide)
  · intro item
    rw [hitems, List.mem_append]
    constructor
    · rintro (hunknown | hmissing)
      · obtain ⟨oid, hoid, rfl⟩ := List.mem_map.mp hunknown
        refine ⟨?_, oid, .inl rfl⟩
        rw [tag_append_mem_drift (by simp [TAGS])]
        exact .inr (.inr (.inl ⟨rfl, (List.mem_insertionSort _).mp hoid⟩))
      · obtain ⟨oid, hoid, rfl⟩ := List.mem_map.mp hmissing
        refine ⟨?_, oid, .inr rfl⟩
        rw [tag_append_mem_drift (by simp [TAGS])]
        exact .inr (.inr (.inr ⟨rfl, (List.mem_insertionSort _).mp hoid⟩))
    · rintro ⟨hdrift, oid, rfl | rfl⟩
      · rw [tag_append_mem_drift (by simp [TAGS])] at hdrift
        refine .inl (List.mem_map.mpr ⟨oid, ?_, rfl⟩)
        rw [sorted, List.mem_insertionSort]
        simpa using hdrift
      · rw [tag_append_mem_drift (by simp [TAGS])] at hdrift
        refine .inr (List.mem_map.mpr ⟨oid, ?_, rfl⟩)
        rw [sorted, List.mem_insertionSort]
        simpa using hdrift

/-! ## 6. The detectors agree -/

theorem detectExternalActivity_swap :
    detectExternalActivity exch loc = (detectExternalActivity loc exch).swap := by
  simp only [detectExternalActivity, ExternalActivityEvidence.swap,
    sorted_changedKeys_comm exch.balances, sorted_changedKeys_comm exch.positions]

/-- **The detectors agree.**  There is drift exactly if there is external activity, that is, if the
snapshots are not of the same account; from the other side the same is found, unknown and missing
orders exchanged; and each order in the drift has one action. -/
theorem detectors_agree (loc exch : AccountSnapshot Decimal) (allowCancelUnknown : Bool) :
    ((reconcile loc exch).drift = [] ↔ (detectExternalActivity loc exch).detected = false) ∧
      ((detectExternalActivity loc exch).detected = false ↔ SameAccount loc exch) ∧
      Mirrored (reconcile loc exch).drift (reconcile exch loc).drift ∧
      detectExternalActivity exch loc = (detectExternalActivity loc exch).swap ∧
      OneActionEach (reconcile loc exch).drift
        (planOrphanOrderRecovery loc exch allowCancelUnknown) :=
  ⟨drift_eq_nil_iff.trans detected_eq_false_iff.symm, detected_eq_false_iff, mirrored,
    detectExternalActivity_swap, oneActionEach allowCancelUnknown⟩

end Detectors

section Example

/-- A set is iterated in the order of the last insertions. -/
@[reducible] def lastInsertions : PySetOnce where
  elements := List.dedup
  mem_elements := List.mem_dedup
  nodup_elements := List.nodup_dedup

attribute [local instance] lastInsertions

/-- A balance, and one order that the exchange does not know. -/
def kept : AccountSnapshot Decimal := ⟨[("BTC", .finite 1), ("USDT", 0)], [], ["o-1", "o-2"]⟩

/-- What the exchange says: another balance, and an order of somebody else's. -/
def reported : AccountSnapshot Decimal := ⟨[("BTC", .finite 2)], [], ["o-2", "o-3"]⟩

theorem detectors_agree_reported :
    (detectExternalActivity kept reported).detected = true ∧
      (reconcile kept reported).drift ≠ [] ∧ ¬ SameAccount kept reported ∧
      detectExternalActivity reported kept = (detectExternalActivity kept reported).swap ∧
      (planOrphanOrderRecovery kept reported false).length = 2 ∧
      OneActionEach (reconcile kept reported).drift
        (planOrphanOrderRecovery kept reported false) := by
  obtain ⟨hdrift, hsame, -, hswap, haction⟩ := detectors_agree kept reported false
  have hdetected : (detectExternalActivity kept reported).detected = true := by decide
  have hnot : (detectExternalActivity kept reported).detected ≠ false := by simp [hdetected]
  exact ⟨hdetected, mt hdrift.mp hnot, mt hsame.mpr hnot, hswap, by decide, haction⟩

end Example

end Kripto.Risk
