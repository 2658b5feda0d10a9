/-
# The local order book

`data/orderbook.py`: a copy of an exchange's order book, loaded from a snapshot and kept up by
deltas that must follow each other without a gap.  Every method answers and leaves a book; one
that raises leaves what it has done so far.

The decimals that are numbers are any linear order with a zero.  The others are NaNs.
-/
import Kripto.Effect.Absolute
import Kripto.Effect.Object
import Kripto.Effect.Outcome
import Kripto.Effect.Totals

namespace Kripto.Data

open Effect

/-! ## 1. Decimals, levels and sides -/

/-- A decimal, finite or infinite, or a quiet NaN. -/
inductive Decimal (V : Type)
  | nan
  | number (x : V)
  deriving DecidableEq

inductive Exc
  | orderBookIntegrityError (msg : String)
  | other (name : String)
  deriving DecidableEq

/-- What a comparison with a NaN raises. -/
def Exc.invalidOperation : Exc := .other "InvalidOperation"

/-- A price and a quantity as they are given: `Decimal(str(p))` and `Decimal(str(q))`, or what these
raise.  A signalling NaN counts as raising, since it is neither hashed nor compared; something
that is no pair raises as its quantity. -/
structure Level (V : Type) where
  price : Except Exc (Decimal V)
  qty : Except Exc (Decimal V)

/-- `bids` or `asks`: the quantities under prices that are numbers, and those under prices that
are NaNs.  A NaN is equal to no key, so each of them is a key of its own. -/
structure Side (V : Type) [DecidableEq V] where
  levels : Table V (Decimal V) := ∅
  unordered : List (Decimal V) := []

variable {V : Type} [LinearOrder V] [Zero V]

namespace Side

variable (side : Side V)

def isEmpty : Bool := side.levels.keys = [] ∧ side.unordered = []

/-- `side[p] = q`. -/
def set (q : Decimal V) : Decimal V → Side V
  | .number x => { side with levels := side.levels.insert x q }
  | .nan => { side with unordered := side.unordered ++ [q] }

/-- `side.pop(p, None)`. -/
def pop : Decimal V → Side V
  | .number x => { side with levels := side.levels.erase x }
  | .nan => side

/-- An update of a delta. -/
def write (p q : Decimal V) : Side V := if q = .number 0 then side.pop p else side.set q p

/-- `max(side)` or `min(side)`, or `None` if it is empty.  It raises where a NaN is compared. -/
def best (pick : List V → Option V) : Except Exc (Option (Decimal V)) :=
  match side.levels.keys, side.unordered with
  | keys, [] => .ok ((pick keys).map .number)
  | [], [_] => .ok (some .nan)
  | _, _ => .error .invalidOperation

/-- `sorted(side.items())`, in the given order of prices. -/
def items (le : V → V → Bool) : Except Exc (List (Decimal V × Decimal V)) :=
  match side.levels.entries, side.unordered with
  | entries, [] => .ok ((entries.mergeSort fun e e' => le e.1 e'.1).map fun e => (.number e.1, e.2))
  | [], [q] => .ok [(.nan, q)]
  | _, _ => .error .invalidOperation

end Side

/-- The dictionary comprehension of `load_snapshot`: the condition is evaluated first. -/
def snapshotLevel (side : Side V) (level : Level V) : Except Exc (Side V) := do
  match ← level.qty with
  | .nan => .error .invalidOperation
  | .number x =>
    if 0 < x then return side.set (.number x) (← level.price)
    else return side

def snapshotSide (levels : List (Level V)) : Except Exc (Side V) := levels.foldlM snapshotLevel {}

/-- The loop of `apply_delta` over one side. -/
def writeLevels : Side V → List (Level V) → Except Exc Unit × Side V
  | side, [] => (.ok (), side)
  | side, level :: levels =>
    match level.price, level.qty with
    | .ok p, .ok q => writeLevels (side.write p q) levels
    | .error e, _ => (.error e, side)
    | .ok _, .error e => (.error e, side)

/-! ## 2. The book -/

structure LocalOrderBook (V : Type) [DecidableEq V] where
  lastUpdateId : Option ℤ := none
  bids : Side V := {}
  asks : Side V := {}
  valid : Bool := false
  gapCount : ℕ := 0
  resyncCount : ℕ := 0
  staleEventCount : ℕ := 0
  lastUpdateAt : Option ℚ := none
  checksumVerified : Option Bool := none

/-- The functions of a checksum: the SHA-256 of the levels in their canonical text, and
`casefold`. -/
class ChecksumRuntime (V : Type) where
  digest : List (String × Decimal V × Decimal V) → String
  casefold : String → String

namespace LocalOrderBook

variable (self : LocalOrderBook V)

def bestBid : Except Exc (Option (Decimal V)) := self.bids.best List.max?

def bestAsk : Except Exc (Option (Decimal V)) := self.asks.best List.min?

/-- The book with this number and these sides. -/
def holding (lastUpdateId : Option ℤ) (bids asks : Side V) : LocalOrderBook V :=
  { self with lastUpdateId, bids, asks }

/-- `_validate`. -/
def validate : Except Exc Unit :=
  if self.bids.isEmpty ∨ self.asks.isEmpty then .ok ()
  else do
    match ← self.bestBid, ← self.bestAsk with
    | some (.number b), some (.number a) =>
      if a ≤ b then .error (.orderBookIntegrityError "crossed book") else .ok ()
    | _, _ => .error .invalidOperation

/-- `try: self._validate() except OrderBookIntegrityError: self.valid = False; raise`. -/
def validated : Except Exc Unit × LocalOrderBook V :=
  match self.validate with
  | .error (.orderBookIntegrityError msg) =>
    (.error (.orderBookIntegrityError msg), { self with valid := false })
  | answer => (answer, self)

def loadSnapshot (lastUpdateId : ℤ) (bids asks : List (Level V)) (monotonic : ℚ) :
    Except Exc Unit × LocalOrderBook V :=
  match snapshotSide bids with
  | .error e => (.error e, self.holding (some lastUpdateId) self.bids self.asks)
  | .ok bids =>
    match snapshotSide asks with
    | .error e => (.error e, self.holding (some lastUpdateId) bids self.asks)
    | .ok asks =>
      match validated (self.holding (some lastUpdateId) bids asks) with
      | (.error e, left) => (.error e, left)
      | (.ok (), left) => (.ok (), { left with
          valid := true, resyncCount := left.resyncCount + 1, lastUpdateAt := some monotonic })

/-- What `apply_delta` does with a delta that follows the book. -/
def writeDelta (lastId : ℤ) (bids asks : List (Level V)) (monotonic : ℚ) :
    Except Exc Bool × LocalOrderBook V :=
  match writeLevels self.bids bids with
  | (.error e, bids) => (.error e, self.holding self.lastUpdateId bids self.asks)
  | (.ok (), bids) =>
    match writeLevels self.asks asks with
    | (.error e, asks) => (.error e, self.holding self.lastUpdateId bids asks)
    | (.ok (), asks) =>
      match validated (self.holding (some lastId) bids asks) with
      | (.error e, left) => (.error e, left)
      | (.ok (), left) => (.ok true, { left with lastUpdateAt := some monotonic })

def applyDelta (firstId lastId : ℤ) (bids asks : List (Level V)) (monotonic : ℚ) :
    Except Exc Bool × LocalOrderBook V :=
  match self.lastUpdateId, self.valid with
  | some last, true =>
    if lastId ≤ last then
      (.ok false, { self with staleEventCount := self.staleEventCount + 1 })
    else if ¬ (firstId ≤ last + 1 ∧ last + 1 ≤ lastId) then
      (.error (.orderBookIntegrityError "sequence gap"),
        { self with gapCount := self.gapCount + 1, valid := false })
    else self.writeDelta lastId bids asks monotonic
  | _, _ => (.error (.orderBookIntegrityError "snapshot required"), self)

/-- `canonical_checksum_payload`, as the levels it lists. -/
def canonicalChecksumPayload (depth : Option ℤ) :
    Except Exc (List (String × Decimal V × Decimal V)) := do
  let bids ← self.bids.items fun p p' => decide (p' ≤ p)
  let asks ← self.asks.items fun p p' => decide (p ≤ p')
  let cut (levels : List (Decimal V × Decimal V)) := match depth with
    | some n => levels.take n.toNat
    | none => levels
  if ∃ n ∈ depth, n ≤ 0 then .error (.other "ValueError")
  else return (cut bids).map (fun level => ("B", level)) ++ (cut asks).map fun level => ("A", level)

def verifyExchangeChecksum [ChecksumRuntime V] (expectedHex : Option String)
    (depth : Option ℤ) : Except Exc Bool × LocalOrderBook V :=
  match expectedHex with
  | none => (.ok true, { self with checksumVerified := none })
  | some expected =>
    if self.valid = false then
      (.error (.orderBookIntegrityError "cannot checksum INVALID order book"), self)
    else match self.canonicalChecksumPayload depth with
      | .error e => (.error e, self)
      | .ok payload =>
        if ChecksumRuntime.digest payload = ChecksumRuntime.casefold V expected then
          (.ok true, { self with checksumVerified := some true })
        else
          (.error (.orderBookIntegrityError "exchange checksum mismatch; resync required"),
            { self with checksumVerified := some false, valid := false })

end LocalOrderBook

/-- The calls that change a book, with what the monotonic clock reads. -/
inductive Call (V : Type)
  | loadSnapshot (lastUpdateId : ℤ) (bids asks : List (Level V)) (monotonic : ℚ)
  | applyDelta (firstId lastId : ℤ) (bids asks : List (Level V)) (monotonic : ℚ)
  | verifyExchangeChecksum (expectedHex : Option String) (depth : Option ℤ)

/-- What a call returns: `load_snapshot` returns nothing. -/
abbrev Answer : Type := Except Exc (Option Bool)

def act [ChecksumRuntime V] : Object (LocalOrderBook V) (Call V) Answer
  | self, .loadSnapshot lastUpdateId bids asks monotonic =>
    let (answer, left) := self.loadSnapshot lastUpdateId bids asks monotonic
    (answer.map fun _ => none, left)
  | self, .applyDelta firstId lastId bids asks monotonic =>
    let (answer, left) := self.applyDelta firstId lastId bids asks monotonic
    (answer.map some, left)
  | self, .verifyExchangeChecksum expectedHex depth =>
    let (answer, left) := self.verifyExchangeChecksum expectedHex depth
    (answer.map some, left)

/-! ## 3. What the calls do -/

/-- The prices of the two sides can be compared, if they are. -/
def Comparable (bids asks : Side V) : Prop :=
  bids.isEmpty = true ∨ asks.isEmpty = true ∨ bids.unordered = [] ∧ asks.unordered = []

omit [Zero V] in
theorem Side.best_of_ordered {side : Side V} {pick : List V → Option V} (h : side.unordered = []) :
    side.best pick = .ok ((pick side.levels.keys).map .number) := by
  simp [Side.best, h]

omit [Zero V] in
theorem Side.best_cases (side : Side V) (pick : List V → Option V) :
    (side.unordered = [] ∧ side.best pick = .ok ((pick side.levels.keys).map .number)) ∨
      side.best pick = .ok (some .nan) ∨ side.best pick = .error .invalidOperation := by
  unfold Side.best
  split
  · rename_i hnil
    exact .inl ⟨hnil, rfl⟩
  · exact .inr (.inl rfl)
  · exact .inr (.inr rfl)

omit [Zero V] in
theorem Side.keys_ne_nil {side : Side V} (h : side.isEmpty ≠ true) (ho : side.unordered = []) :
    side.levels.keys ≠ [] := by
  intro hkeys
  exact h (by simp [Side.isEmpty, hkeys, ho])

namespace LocalOrderBook

variable {self : LocalOrderBook V}

/-- The best prices are in order, where there are prices on both sides. -/
def Uncrossed (self : LocalOrderBook V) : Prop :=
  self.bids.isEmpty = true ∨ self.asks.isEmpty = true ∨
    ∃ b a, self.bestBid = .ok (some (.number b)) ∧ self.bestAsk = .ok (some (.number a)) ∧ b < a

omit [Zero V] in
/-- A best price that is not a number fails the comparison. -/
theorem validate_of_unordered (hb : self.bids.isEmpty ≠ true) (ha : self.asks.isEmpty ≠ true)
    (h : self.bids.unordered ≠ [] ∨ self.asks.unordered ≠ []) :
    self.validate = .error .invalidOperation := by
  unfold validate bestBid bestAsk
  rw [if_neg (not_or.mpr ⟨hb, ha⟩)]
  rcases Side.best_cases self.bids List.max? with ⟨hbids, heq⟩ | heq | heq
  · rw [heq]
    rcases Side.best_cases self.asks List.min? with ⟨hasks, heq'⟩ | heq' | heq'
    · exact absurd h (by simp [hbids, hasks])
    · rw [heq']
      cases self.bids.levels.keys.max? <;> rfl
    · rw [heq']
      rfl
  · rw [heq]
    rcases Side.best_cases self.asks List.min? with ⟨-, heq'⟩ | heq' | heq' <;> rw [heq'] <;> rfl
  · rw [heq]
    rfl

omit [Zero V] in
/-- **What `_validate` finds.** -/
theorem validate_cases (self : LocalOrderBook V) :
    (self.validate = .ok () ∧ self.Uncrossed) ∨
    (self.validate = .error (.orderBookIntegrityError "crossed book") ∧
      Comparable self.bids self.asks) ∨
    (self.validate = .error .invalidOperation ∧ ¬ Comparable self.bids self.asks) := by
  by_cases hb : self.bids.isEmpty = true
  · exact .inl ⟨if_pos (.inl hb), .inl hb⟩
  · by_cases ha : self.asks.isEmpty = true
    · exact .inl ⟨if_pos (.inr ha), .inr (.inl ha)⟩
    · by_cases h : self.bids.unordered = [] ∧ self.asks.unordered = []
      · obtain ⟨b, hbest⟩ := Option.isSome_iff_exists.mp
          (List.isSome_max?_of_ne_nil (Side.keys_ne_nil hb h.1))
        obtain ⟨a, hask⟩ := Option.isSome_iff_exists.mp
          (List.isSome_min?_of_ne_nil (Side.keys_ne_nil ha h.2))
        have hbid : self.bestBid = .ok (some (.number b)) := by
          rw [bestBid, Side.best_of_ordered h.1, hbest]
          rfl
        have hask' : self.bestAsk = .ok (some (.number a)) := by
          rw [bestAsk, Side.best_of_ordered h.2, hask]
          rfl
        have hvalidate : self.validate =
            if a ≤ b then .error (.orderBookIntegrityError "crossed book") else .ok () := by
          rw [validate, if_neg (not_or.mpr ⟨hb, ha⟩), hbid, hask']
          rfl
        by_cases hle : a ≤ b
        · exact .inr (.inl ⟨by rw [hvalidate, if_pos hle], .inr (.inr h)⟩)
        · exact .inl ⟨by rw [hvalidate, if_neg hle], .inr (.inr ⟨b, a, hbid, hask', not_le.mp hle⟩)⟩
      · refine .inr (.inr ⟨validate_of_unordered hb ha (not_and_or.mp h), ?_⟩)
        rintro (hempty | hempty | hboth)
        · exact hb hempty
        · exact ha hempty
        · exact h hboth

omit [Zero V] in
theorem validated_cases (self : LocalOrderBook V) :
    (self.validated = (.ok (), self) ∧ self.Uncrossed) ∨
    (self.validated = (.error (.orderBookIntegrityError "crossed book"),
        { self with valid := false }) ∧ Comparable self.bids self.asks) ∨
    (self.validated = (.error .invalidOperation, self) ∧ ¬ Comparable self.bids self.asks) := by
  rcases validate_cases self with ⟨heq, h⟩ | ⟨heq, h⟩ | ⟨heq, h⟩
  · exact .inl ⟨by simp [validated, heq], h⟩
  · exact .inr (.inl ⟨by simp [validated, heq], h⟩)
  · exact .inr (.inr ⟨by simp [validated, heq, Exc.invalidOperation], h⟩)

variable {id : ℤ} {bids asks : List (Level V)} {monotonic : ℚ}

/-- **What a snapshot can do.** -/
theorem loadSnapshot_cases (self : LocalOrderBook V) (id : ℤ) (bids asks : List (Level V))
    (monotonic : ℚ) :
    (∃ e, snapshotSide bids = .error e ∧ self.loadSnapshot id bids asks monotonic =
      (.error e, self.holding (some id) self.bids self.asks)) ∨
    (∃ b e, snapshotSide bids = .ok b ∧ snapshotSide asks = .error e ∧
      self.loadSnapshot id bids asks monotonic =
        (.error e, self.holding (some id) b self.asks)) ∨
    (∃ b a, snapshotSide bids = .ok b ∧ snapshotSide asks = .ok a ∧
      (Comparable b a ∧ self.loadSnapshot id bids asks monotonic =
          (.error (.orderBookIntegrityError "crossed book"),
            { self.holding (some id) b a with valid := false }) ∨
        ¬ Comparable b a ∧ self.loadSnapshot id bids asks monotonic =
          (.error .invalidOperation, self.holding (some id) b a) ∨
        (self.holding (some id) b a).Uncrossed ∧ self.loadSnapshot id bids asks monotonic =
          (.ok (), { self.holding (some id) b a with
            valid := true, resyncCount := self.resyncCount + 1
            lastUpdateAt := some monotonic }))) := by
  cases hb : snapshotSide bids with
  | error e => exact .inl ⟨e, rfl, by simp [loadSnapshot, hb]⟩
  | ok b =>
    cases ha : snapshotSide asks with
    | error e => exact .inr (.inl ⟨b, e, rfl, rfl, by simp [loadSnapshot, hb, ha]⟩)
    | ok a =>
      refine .inr (.inr ⟨b, a, rfl, rfl, ?_⟩)
      rcases validated_cases (self.holding (some id) b a) with ⟨heq, h⟩ | ⟨heq, h⟩ | ⟨heq, h⟩
      · refine .inr (.inr ⟨h, ?_⟩)
        simp only [loadSnapshot, hb, ha, heq]
        rfl
      · exact .inl ⟨h, by simp [loadSnapshot, hb, ha, heq]⟩
      · exact .inr (.inl ⟨h, by simp [loadSnapshot, hb, ha, heq]⟩)

/-- **What a delta that follows the book can do.** -/
theorem writeDelta_cases (self : LocalOrderBook V) (lastId : ℤ) (bids asks : List (Level V))
    (monotonic : ℚ) :
    (∃ b e, writeLevels self.bids bids = (.error e, b) ∧
      self.writeDelta lastId bids asks monotonic =
        (.error e, self.holding self.lastUpdateId b self.asks)) ∨
    (∃ b a e, writeLevels self.bids bids = (.ok (), b) ∧
      writeLevels self.asks asks = (.error e, a) ∧ self.writeDelta lastId bids asks monotonic =
        (.error e, self.holding self.lastUpdateId b a)) ∨
    (∃ b a, writeLevels self.bids bids = (.ok (), b) ∧ writeLevels self.asks asks = (.ok (), a) ∧
      (Comparable b a ∧ self.writeDelta lastId bids asks monotonic =
          (.error (.orderBookIntegrityError "crossed book"),
            { self.holding (some lastId) b a with valid := false }) ∨
        ¬ Comparable b a ∧ self.writeDelta lastId bids asks monotonic =
          (.error .invalidOperation, self.holding (some lastId) b a) ∨
        (self.holding (some lastId) b a).Uncrossed ∧
          self.writeDelta lastId bids asks monotonic =
            (.ok true, { self.holding (some lastId) b a with
              lastUpdateAt := some monotonic }))) := by
  rcases hb : writeLevels self.bids bids with ⟨_ | _, b⟩
  · rename_i e
    exact .inl ⟨b, e, rfl, by simp [writeDelta, hb]⟩
  · rcases ha : writeLevels self.asks asks with ⟨_ | _, a⟩
    · rename_i e
      exact .inr (.inl ⟨b, a, e, rfl, rfl, by simp [writeDelta, hb, ha]⟩)
    · refine .inr (.inr ⟨b, a, rfl, rfl, ?_⟩)
      rcases validated_cases (self.holding (some lastId) b a) with ⟨heq, h⟩ | ⟨heq, h⟩ | ⟨heq, h⟩
      · exact .inr (.inr ⟨h, by simp [writeDelta, hb, ha, heq]⟩)
      · exact .inl ⟨h, by simp [writeDelta, hb, ha, heq]⟩
      · exact .inr (.inl ⟨h, by simp [writeDelta, hb, ha, heq]⟩)

/-- The book is valid and the delta is new and leaves no gap. -/
def Follows (self : LocalOrderBook V) (firstId lastId : ℤ) : Prop :=
  self.valid = true ∧ ∃ last, self.lastUpdateId = some last ∧ last < lastId ∧ firstId ≤ last + 1

/-- The delta is old: the book has been numbered beyond it. -/
def Stale (self : LocalOrderBook V) (lastId : ℤ) : Prop :=
  self.valid = true ∧ ∃ last, self.lastUpdateId = some last ∧ lastId ≤ last

/-- The delta is new and leaves a gap. -/
def LeavesGap (self : LocalOrderBook V) (firstId lastId : ℤ) : Prop :=
  self.valid = true ∧ ∃ last, self.lastUpdateId = some last ∧ last < lastId ∧ last + 1 < firstId

/-- **What a delta can do**: be refused, be stale, leave a gap, or be written. -/
theorem applyDelta_cases (self : LocalOrderBook V) (firstId lastId : ℤ)
    (bids asks : List (Level V)) (monotonic : ℚ) :
    ((self.lastUpdateId = none ∨ self.valid = false) ∧
      self.applyDelta firstId lastId bids asks monotonic =
        (.error (.orderBookIntegrityError "snapshot required"), self)) ∨
    (self.Stale lastId ∧ self.applyDelta firstId lastId bids asks monotonic =
      (.ok false, { self with staleEventCount := self.staleEventCount + 1 })) ∨
    (self.LeavesGap firstId lastId ∧ self.applyDelta firstId lastId bids asks monotonic =
      (.error (.orderBookIntegrityError "sequence gap"),
        { self with gapCount := self.gapCount + 1, valid := false })) ∨
    (self.Follows firstId lastId ∧ self.applyDelta firstId lastId bids asks monotonic =
      self.writeDelta lastId bids asks monotonic) := by
  cases hlast : self.lastUpdateId with
  | none => exact .inl ⟨.inl rfl, by simp [applyDelta, hlast]⟩
  | some last =>
    cases hvalid : self.valid with
    | false => exact .inl ⟨.inr rfl, by simp [applyDelta, hlast, hvalid]⟩
    | true =>
      by_cases hstale : lastId ≤ last
      · exact .inr (.inl ⟨⟨hvalid, last, hlast, hstale⟩,
          by simp [applyDelta, hlast, hvalid, hstale]⟩)
      · have hnew : last < lastId := not_le.mp hstale
        by_cases hgap : firstId ≤ last + 1
        · refine .inr (.inr (.inr ⟨⟨hvalid, last, hlast, hnew, hgap⟩, ?_⟩))
          simp [applyDelta, hlast, hvalid, hstale, hgap, Int.add_one_le_of_lt hnew]
        · refine .inr (.inr (.inl ⟨⟨hvalid, last, hlast, hnew, not_le.mp hgap⟩, ?_⟩))
          simp [applyDelta, hlast, hvalid, hstale, hgap]

end LocalOrderBook

end Kripto.Data
