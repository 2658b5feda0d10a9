/-
# Is a valid book well formed?

`load_snapshot` keeps positive quantities only.  `apply_delta` drops those that are zero and
stores any other, and it checks the prices when all levels have been written.

* `valid_wellFormed`: after any calls, each of which is `Orderly`, a book that is valid has
  positive quantities only and its best bid is below its best ask.

`negative_stored` is a delta with a negative quantity.
-/
import Kripto.Data.OrderBook
import Mathlib.Algebra.Order.Ring.Rat

namespace Kripto.Data

open Effect

variable {V : Type} [LinearOrder V] [Zero V]

/-! ## 1. Positive quantities -/

def Decimal.Positive : Decimal V → Prop
  | .nan => False
  | .number x => 0 < x

@[simp] theorem Decimal.positive_number {x : V} : (Decimal.number x).Positive ↔ 0 < x := Iff.rfl

/-- Every stored quantity is positive. -/
structure Side.Positive (side : Side V) : Prop where
  levels : ∀ x q, side.levels.lookup x = some q → q.Positive
  unordered : ∀ q ∈ side.unordered, q.Positive

variable {side left : Side V} {levels : List (Level V)}

theorem Side.Positive.empty : ({} : Side V).Positive :=
  ⟨fun x q hq => by simp at hq, fun q hq => by simp at hq⟩

theorem Side.Positive.set (h : side.Positive) {q : Decimal V} (hq : q.Positive) (p : Decimal V) :
    (side.set q p).Positive := by
  cases p with
  | nan =>
    refine ⟨h.levels, fun q' hq' => ?_⟩
    rcases List.mem_append.mp hq' with hold | hnew
    · exact h.unordered q' hold
    · rwa [List.mem_singleton.mp hnew]
  | number x =>
    refine ⟨fun x' q' hq' => ?_, h.unordered⟩
    by_cases hx : x' = x
    · subst hx
      rw [Side.set, AList.lookup_insert, Option.some.injEq] at hq'
      rwa [← hq']
    · rw [Side.set, AList.lookup_insert_ne hx] at hq'
      exact h.levels x' q' hq'

theorem Side.Positive.pop (h : side.Positive) (p : Decimal V) : (side.pop p).Positive := by
  cases p with
  | nan => exact h
  | number x =>
    refine ⟨fun x' q' hq' => ?_, h.unordered⟩
    by_cases hx : x' = x
    · subst hx
      simp [Side.pop] at hq'
    · rw [Side.pop, AList.lookup_erase_ne hx] at hq'
      exact h.levels x' q' hq'

/-- What `load_snapshot` keeps is positive. -/
theorem positive_snapshotSide (h : snapshotSide levels = .ok side) : side.Positive := by
  refine foldlM_keeps (I := fun _ side => side.Positive) Side.Positive.empty ?_ h
  intro levels level side left hside hlevel
  simp only [snapshotLevel, bind_eq_ok_iff] at hlevel
  obtain ⟨q, -, hq⟩ := hlevel
  cases q with
  | nan => cases hq
  | number x =>
    by_cases hx : 0 < x
    · simp only [hx, if_true, bind_eq_ok_iff, pure_eq_ok, Except.ok.injEq] at hq
      obtain ⟨p, -, rfl⟩ := hq
      exact hside.set (Decimal.positive_number.mpr hx) p
    · simp only [hx, if_false, pure_eq_ok, Except.ok.injEq] at hq
      rwa [← hq]

/-- The level reads as two decimals, and its quantity is a number that is not negative. -/
def Level.NotNegative (level : Level V) : Prop :=
  ∃ p x, level.price = .ok p ∧ level.qty = .ok (.number x) ∧ 0 ≤ x

theorem Side.Positive.write (h : side.Positive) (p : Decimal V) {x : V} (hx : 0 ≤ x) :
    (side.write p (.number x)).Positive := by
  unfold Side.write
  split
  · exact h.pop p
  · rename_i hne
    have hpos : 0 < x := lt_of_le_of_ne hx fun heq => hne (by rw [heq])
    exact h.set (Decimal.positive_number.mpr hpos) p

theorem positive_writeLevels (h : side.Positive) (hlevels : ∀ level ∈ levels, level.NotNegative) :
    (writeLevels side levels).1 = .ok () ∧ (writeLevels side levels).2.Positive := by
  induction levels generalizing side with
  | nil => exact ⟨rfl, h⟩
  | cons level levels ih =>
    obtain ⟨p, x, hp, hq, hx⟩ := hlevels level List.mem_cons_self
    have hrest : ∀ level ∈ levels, level.NotNegative :=
      fun level hmem => hlevels level (List.mem_cons_of_mem _ hmem)
    have hstep : writeLevels side (level :: levels) =
        writeLevels (side.write p (.number x)) levels := by simp [writeLevels, hp, hq]
    rw [hstep]
    exact ih (h.write p hx) hrest

/-- The price or the quantity is no decimal. -/
def Level.Unreadable (level : Level V) : Prop :=
  (∃ e, level.price = .error e) ∨ ∃ e, level.qty = .error e

/-- If the first level cannot be read, nothing is written. -/
theorem writeLevels_of_unreadable {level : Level V} (h : level.Unreadable) :
    ∃ e, writeLevels side (level :: levels) = (.error e, side) := by
  rcases h with ⟨e, hprice⟩ | ⟨e, hqty⟩
  · exact ⟨e, by simp [writeLevels, hprice]⟩
  · cases hprice : level.price with
    | ok p => exact ⟨e, by simp [writeLevels, hprice, hqty]⟩
    | error e' => exact ⟨e', by simp [writeLevels, hprice]⟩

/-! ## 2. Well-formed books -/

/-- All quantities are positive, and the best prices are in order where there are prices on both
sides. -/
structure WellFormed (book : LocalOrderBook V) : Prop where
  bids : book.bids.Positive
  asks : book.asks.Positive
  uncrossed : book.Uncrossed

/-- A call that does not come to grief half way: a snapshot, once its bids are read, has asks that
can be read and compared with them, unless the book is not valid; a delta that follows the book has
a first level that cannot be read, or only levels that are not negative, and comparable prices. -/
def Orderly (book : LocalOrderBook V) : Call V → Prop
  | .loadSnapshot _ bids asks _ => book.valid = true → ∀ b, snapshotSide bids = .ok b →
      ∃ a, snapshotSide asks = .ok a ∧ Comparable b a
  | .applyDelta firstId lastId bids asks _ => book.Follows firstId lastId →
      (∃ level ∈ (bids ++ asks).head?, level.Unreadable) ∨
      (∀ level ∈ bids ++ asks, level.NotNegative) ∧
        Comparable (writeLevels book.bids bids).2 (writeLevels book.asks asks).2
  | .verifyExchangeChecksum .. => True

/-- A valid book is well formed. -/
def Trusted (book : LocalOrderBook V) : Prop := book.valid = true → WellFormed book

variable {book : LocalOrderBook V}

theorem trusted_loadSnapshot (h : Trusted book) {id : ℤ} {bids asks : List (Level V)}
    {monotonic : ℚ} (hcall : Orderly book (.loadSnapshot id bids asks monotonic)) :
    Trusted (book.loadSnapshot id bids asks monotonic).2 := by
  rcases book.loadSnapshot_cases id bids asks monotonic with
    ⟨e, -, heq⟩ | ⟨b, e, hb, ha, heq⟩ | ⟨b, a, hb, ha, h'⟩
  · rw [heq]
    exact fun hvalid => ⟨(h hvalid).bids, (h hvalid).asks, (h hvalid).uncrossed⟩
  · rw [heq]
    intro hvalid
    obtain ⟨a, ha', -⟩ := hcall hvalid b hb
    rw [ha] at ha'
    cases ha'
  · rcases h' with ⟨-, heq⟩ | ⟨hnot, heq⟩ | ⟨huncrossed, heq⟩
    · rw [heq]
      exact fun hvalid => absurd hvalid (by simp)
    · rw [heq]
      intro hvalid
      obtain ⟨a', ha', hcomparable⟩ := hcall hvalid b hb
      rw [ha, Except.ok.injEq] at ha'
      exact absurd (ha' ▸ hcomparable) hnot
    · rw [heq]
      exact fun _ => ⟨positive_snapshotSide hb, positive_snapshotSide ha, huncrossed⟩

theorem trusted_writeDelta (h : WellFormed book) {lastId : ℤ} {bids asks : List (Level V)}
    (monotonic : ℚ) (hlevels : ∀ level ∈ bids ++ asks, level.NotNegative)
    (hcomparable : Comparable (writeLevels book.bids bids).2 (writeLevels book.asks asks).2) :
    Trusted (book.writeDelta lastId bids asks monotonic).2 := by
  have hbids := positive_writeLevels h.bids fun level hmem =>
    hlevels level (List.mem_append_left _ hmem)
  have hasks := positive_writeLevels h.asks fun level hmem =>
    hlevels level (List.mem_append_right _ hmem)
  rcases book.writeDelta_cases lastId bids asks monotonic with
    ⟨b, e, hb, heq⟩ | ⟨b, a, e, hb, ha, heq⟩ | ⟨b, a, hb, ha, h'⟩
  · rw [hb] at hbids
    exact absurd hbids.1 (by simp)
  · rw [ha] at hasks
    exact absurd hasks.1 (by simp)
  · rw [hb] at hbids hcomparable
    rw [ha] at hasks hcomparable
    rcases h' with ⟨-, heq⟩ | ⟨hnot, heq⟩ | ⟨huncrossed, heq⟩
    · rw [heq]
      exact fun hvalid => absurd hvalid (by simp)
    · exact absurd hcomparable hnot
    · rw [heq]
      exact fun _ => ⟨hbids.2, hasks.2, huncrossed⟩

/-- A delta whose first level cannot be read leaves the book as it is. -/
theorem writeDelta_of_unreadable {lastId : ℤ} {bids asks : List (Level V)} {monotonic : ℚ}
    {level : Level V} (hfirst : level ∈ (bids ++ asks).head?) (h : level.Unreadable) :
    (book.writeDelta lastId bids asks monotonic).2 = book := by
  cases bids with
  | cons first rest =>
    obtain rfl : first = level := by simpa using hfirst
    obtain ⟨e, heq⟩ : ∃ e, writeLevels book.bids (first :: rest) = (.error e, book.bids) :=
      writeLevels_of_unreadable h
    simp only [LocalOrderBook.writeDelta, heq]
    rfl
  | nil =>
    cases asks with
    | nil => simp at hfirst
    | cons first rest =>
      obtain rfl : first = level := by simpa using hfirst
      obtain ⟨e, heq⟩ : ∃ e, writeLevels book.asks (first :: rest) = (.error e, book.asks) :=
        writeLevels_of_unreadable h
      have hbids : writeLevels book.bids [] = (.ok (), book.bids) := rfl
      simp only [LocalOrderBook.writeDelta, hbids, heq]
      rfl

theorem trusted_applyDelta (h : Trusted book) {firstId lastId : ℤ} {bids asks : List (Level V)}
    {monotonic : ℚ} (hcall : Orderly book (.applyDelta firstId lastId bids asks monotonic)) :
    Trusted (book.applyDelta firstId lastId bids asks monotonic).2 := by
  rcases book.applyDelta_cases firstId lastId bids asks monotonic with
    ⟨-, heq⟩ | ⟨-, heq⟩ | ⟨-, heq⟩ | ⟨hfollows, heq⟩
  · rwa [heq]
  · rw [heq]
    exact fun hvalid => ⟨(h hvalid).bids, (h hvalid).asks, (h hvalid).uncrossed⟩
  · rw [heq]
    exact fun hvalid => absurd hvalid (by simp)
  · rw [heq]
    rcases hcall hfollows with ⟨level, hfirst, hunreadable⟩ | ⟨hlevels, hcomparable⟩
    · rw [writeDelta_of_unreadable hfirst hunreadable]
      exact h
    · exact trusted_writeDelta (h hfollows.1) monotonic hlevels hcomparable

/-! ## 3. Runs -/

variable [ChecksumRuntime V]

theorem trusted_verifyExchangeChecksum (h : Trusted book) (expectedHex : Option String)
    (depth : Option ℤ) : Trusted (book.verifyExchangeChecksum expectedHex depth).2 := by
  unfold LocalOrderBook.verifyExchangeChecksum
  split
  · exact fun hvalid => ⟨(h hvalid).bids, (h hvalid).asks, (h hvalid).uncrossed⟩
  · split
    · exact h
    · split
      · exact h
      · split
        · exact fun hvalid => ⟨(h hvalid).bids, (h hvalid).asks, (h hvalid).uncrossed⟩
        · exact fun hvalid => absurd hvalid (by simp)

theorem trusted_act (h : Trusted book) {call : Call V} (hcall : Orderly book call) :
    Trusted (act book call).2 := by
  cases call with
  | loadSnapshot id bids asks monotonic => exact trusted_loadSnapshot h hcall
  | applyDelta firstId lastId bids asks monotonic => exact trusted_applyDelta h hcall
  | verifyExchangeChecksum expectedHex depth =>
    exact trusted_verifyExchangeChecksum h expectedHex depth

/-- **A valid book is well formed**, after any orderly calls. -/
theorem valid_wellFormed {calls : List (Call V)}
    (h : Log.Meeting act (fun l => Orderly l.now) (Log.start ({} : LocalOrderBook V)) calls)
    (hvalid : ((Log.start {}).calls act calls).now.valid = true) :
    WellFormed ((Log.start {}).calls act calls).now := by
  have htrusted : Trusted ((Log.start ({} : LocalOrderBook V)).calls act calls).now :=
    Log.keeps (I := fun l => Trusted l.now) (fun l call hl hcall => trusted_act hl hcall)
      (fun hnew => absurd hnew (by simp)) h
  exact htrusted hvalid

/-! ## 4. A negative quantity -/

/-- A level of two numbers. -/
def levelOf (price qty : ℚ) : Level ℚ := ⟨.ok (.number price), .ok (.number qty)⟩

@[reducible] def plainChecksum : ChecksumRuntime ℚ := ⟨fun _ => "", id⟩

attribute [local instance] plainChecksum

/-- A snapshot with one level on each side. -/
def snapshotCall : Call ℚ := .loadSnapshot 10 [levelOf 99 2] [levelOf 101 2] 0

/-- The next delta, with one bid. -/
def bidCall (price qty : ℚ) : Call ℚ := .applyDelta 11 11 [levelOf price qty] [] 1

/-- The book after the two calls. -/
def bookAfter (qty : ℚ) : LocalOrderBook ℚ :=
  ((Log.start {}).calls act [snapshotCall, bidCall 98 qty]).now

theorem valid_wellFormed_three : WellFormed (bookAfter 3) := by
  refine valid_wellFormed ⟨fun hnew => absurd hnew (by simp), fun _ => .inr ⟨?_, ?_⟩, trivial⟩
    (by decide)
  · intro level hlevel
    obtain rfl : level = levelOf 98 3 := by simpa using hlevel
    exact ⟨.number 98, 3, rfl, rfl, by decide⟩
  · exact .inr (.inr ⟨by decide, by decide⟩)

/-- **A negative quantity is stored** in a book that stays valid. -/
theorem negative_stored : (bookAfter (-1)).valid = true ∧ ¬ WellFormed (bookAfter (-1)) := by
  refine ⟨by decide, fun h => ?_⟩
  have hstored : (bookAfter (-1)).bids.levels.lookup 98 = some (.number (-1)) := by
    decide
  have hpositive : (0 : ℚ) < -1 := h.bids.levels 98 _ hstored
  revert hpositive
  decide

end Kripto.Data
