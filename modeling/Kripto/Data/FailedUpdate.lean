/-
# What a failed update leaves

`load_snapshot` numbers the book before it reads a level, and `apply_delta` writes level by level.
Both take the book out of service if the prices turn out to be crossed, and only then.

* `failed_update_safe_iff`: a call that raises leaves the book unchanged or not valid, exactly if
  it is `Harmless`.

`renumbered_in_service` is a snapshot with a price that is no decimal: it raises and the old
levels stay in service under the new number.
-/
import Kripto.Data.WellFormed

namespace Kripto.Data

open Effect

variable {V : Type} [LinearOrder V] [Zero V]

/-! ## 1. Levels written before the failure -/

/-- The levels before the first one that cannot be read. -/
def readable : List (Level V) → List (Decimal V × Decimal V)
  | [] => []
  | level :: levels =>
    match level.price, level.qty with
    | .ok p, .ok q => (p, q) :: readable levels
    | _, _ => []

/-- What is written of them. -/
def Side.writeAll (side : Side V) (pairs : List (Decimal V × Decimal V)) : Side V :=
  pairs.foldl (fun side pair => side.write pair.1 pair.2) side

variable {side : Side V} {levels : List (Level V)} {pairs : List (Decimal V × Decimal V)}

theorem writeLevels_snd (side : Side V) (levels : List (Level V)) :
    (writeLevels side levels).2 = side.writeAll (readable levels) := by
  induction levels generalizing side with
  | nil => rfl
  | cons level levels ih =>
    unfold writeLevels readable
    cases level.price with
    | error e => rfl
    | ok p =>
      cases level.qty with
      | error e => rfl
      | ok q => exact ih (side.write p q)

theorem writeLevels_fst (side : Side V) (levels : List (Level V)) :
    (writeLevels side levels).1 = .ok () ↔ ∀ level ∈ levels, ¬ level.Unreadable := by
  induction levels generalizing side with
  | nil => simp [writeLevels]
  | cons level levels ih =>
    rw [List.forall_mem_cons, writeLevels, Level.Unreadable]
    cases level.price with
    | error e => simp
    | ok p =>
      cases level.qty with
      | error e => simp
      | ok q => simpa using ih (side.write p q)

/-- A level under a price that is a number, as an absolute change. -/
def asChange : Decimal V × Decimal V → Option (Change V (Decimal V))
  | (.number x, q) => some (x, if q = .number 0 then none else some q)
  | (.nan, _) => none

/-- What a level adds under a price that is a NaN. -/
def asUnordered : Decimal V × Decimal V → Option (Decimal V)
  | (.nan, q) => if q = .number 0 then none else some q
  | (.number _, _) => none

/-- The quantity under a price. -/
def Side.get (side : Side V) (x : V) : Option (Decimal V) := side.levels.lookup x

theorem asChange_number (x : V) (q : Decimal V) :
    asChange (.number x, q) = some (x, if q = .number 0 then none else some q) := rfl

theorem asChange_nan (q : Decimal V) : asChange (.nan, q) = none := rfl

theorem get_write_number (side : Side V) (x : V) (q : Decimal V) :
    (side.write (.number x) q).get =
      Function.update side.get x (if q = .number 0 then none else some q) := by
  funext x'
  unfold Side.get
  by_cases hx : x' = x
  · subst hx
    by_cases hq : q = .number 0 <;> simp [Side.write, Side.pop, Side.set, hq]
  · by_cases hq : q = .number 0 <;>
      simp [Side.write, Side.pop, Side.set, hq, hx, AList.lookup_insert_ne, AList.lookup_erase_ne]

theorem get_write_nan (side : Side V) (q : Decimal V) : (side.write .nan q).get = side.get := by
  funext x
  unfold Side.get Side.write
  split <;> rfl

/-- **Writing levels** is making absolute changes. -/
theorem get_writeAll (side : Side V) (pairs : List (Decimal V × Decimal V)) :
    (side.writeAll pairs).get = after side.get (pairs.filterMap asChange) := by
  induction pairs generalizing side with
  | nil => rfl
  | cons pair pairs ih =>
    obtain ⟨p, q⟩ := pair
    have hstep : side.writeAll ((p, q) :: pairs) = (side.write p q).writeAll pairs := rfl
    rw [hstep, ih]
    cases p with
    | nan => rw [get_write_nan, List.filterMap_cons_none (asChange_nan q)]
    | number x =>
      rw [get_write_number, List.filterMap_cons_some (asChange_number x q), after_cons]

theorem unordered_writeAll (side : Side V) (pairs : List (Decimal V × Decimal V)) :
    (side.writeAll pairs).unordered = side.unordered ++ pairs.filterMap asUnordered := by
  induction pairs generalizing side with
  | nil => simp [Side.writeAll]
  | cons pair pairs ih =>
    obtain ⟨p, q⟩ := pair
    have hstep : side.writeAll ((p, q) :: pairs) = (side.write p q).writeAll pairs := rfl
    rw [hstep, ih, List.filterMap_cons]
    cases p with
    | nan => by_cases hq : q = .number 0 <;>
        simp [Side.write, Side.pop, Side.set, asUnordered, hq]
    | number x => by_cases hq : q = .number 0 <;>
        simp [Side.write, Side.pop, Side.set, asUnordered, hq]

/-! ## 2. Nothing changed -/

/-- Two dictionaries are equal. -/
structure Side.Same (side side' : Side V) : Prop where
  get : side.get = side'.get
  unordered : side.unordered = side'.unordered

omit [Zero V] in
theorem Side.Same.refl (side : Side V) : side.Same side := ⟨rfl, rfl⟩

/-- For each price, the last of the levels says what the side holds; and none adds anything under a
NaN. -/
def AlreadyHeld (side : Side V) (pairs : List (Decimal V × Decimal V)) : Prop :=
  (∀ x v, lastChange (pairs.filterMap asChange) x = some v → side.get x = v) ∧
    ∀ q, (.nan, q) ∈ pairs → q = .number 0

theorem same_writeAll_iff : (side.writeAll pairs).Same side ↔ AlreadyHeld side pairs := by
  have hunordered : pairs.filterMap asUnordered = [] ↔ ∀ q, (.nan, q) ∈ pairs → q = .number 0 := by
    rw [List.filterMap_eq_nil_iff]
    constructor
    · intro h q hmem
      have hnone := h _ hmem
      simpa [asUnordered] using hnone
    · rintro h ⟨_ | x, q⟩ hmem
      · simp [asUnordered, h q hmem]
      · rfl
  constructor
  · intro h
    refine ⟨fun x v hlast => ?_, hunordered.mp ?_⟩
    · rw [← h.get, get_writeAll, after_apply, hlast]
      rfl
    · have hsame := h.unordered
      rw [unordered_writeAll] at hsame
      simpa using hsame
  · rintro ⟨hlast, hnan⟩
    refine ⟨?_, by rw [unordered_writeAll, hunordered.mpr hnan, List.append_nil]⟩
    funext x
    rw [get_writeAll, after_apply]
    cases hx : lastChange (pairs.filterMap asChange) x with
    | none => rfl
    | some v => exact (hlast x v hx).symm

/-- The book is as it was: the levels and the number. -/
structure Unchanged (book left : LocalOrderBook V) : Prop where
  lastUpdateId : left.lastUpdateId = book.lastUpdateId
  bids : left.bids.Same book.bids
  asks : left.asks.Same book.asks

omit [Zero V] in
theorem Unchanged.refl (book : LocalOrderBook V) : Unchanged book book :=
  ⟨rfl, .refl _, .refl _⟩

/-! ## 3. Harmless calls -/

/-- A snapshot whose failure is harmless: the book is not valid, or what the snapshot replaces
before it fails is what the book has. -/
def HarmlessSnapshot (book : LocalOrderBook V) (id : ℤ) (bids asks : List (Level V)) : Prop :=
  book.valid = false ∨
    (∀ e, snapshotSide bids = .error e → book.lastUpdateId = some id) ∧
    (∀ b e, snapshotSide bids = .ok b → snapshotSide asks = .error e →
      book.lastUpdateId = some id ∧ b.Same book.bids) ∧
    ∀ b a, snapshotSide bids = .ok b → snapshotSide asks = .ok a →
      Comparable b a ∨ book.lastUpdateId = some id ∧ b.Same book.bids ∧ a.Same book.asks

/-- A delta whose failure is harmless: if one of its levels cannot be read, the levels before it
say what the book holds; otherwise the prices can be compared. -/
def HarmlessDelta (book : LocalOrderBook V) (bids asks : List (Level V)) : Prop :=
  ((∃ level ∈ bids, level.Unreadable) → AlreadyHeld book.bids (readable bids)) ∧
  ((∀ level ∈ bids, ¬ level.Unreadable) → (∃ level ∈ asks, level.Unreadable) →
    AlreadyHeld book.bids (readable bids) ∧ AlreadyHeld book.asks (readable asks)) ∧
  ((∀ level ∈ bids, ¬ level.Unreadable) → (∀ level ∈ asks, ¬ level.Unreadable) →
    Comparable (book.bids.writeAll (readable bids)) (book.asks.writeAll (readable asks)))

def Harmless (book : LocalOrderBook V) : Call V → Prop
  | .loadSnapshot id bids asks _ => HarmlessSnapshot book id bids asks
  | .applyDelta firstId lastId bids asks _ =>
    book.Follows firstId lastId → HarmlessDelta book bids asks
  | .verifyExchangeChecksum .. => True

/-- The book is as it was, or out of service. -/
def Safe (book left : LocalOrderBook V) : Prop := Unchanged book left ∨ left.valid = false

variable {book : LocalOrderBook V} {e : Exc}

omit [Zero V] in
theorem safe_holding_iff {id : Option ℤ} {b a : Side V} :
    Safe book (book.holding id b a) ↔
      book.valid = false ∨ book.lastUpdateId = id ∧ b.Same book.bids ∧ a.Same book.asks := by
  rw [Safe, or_comm]
  refine or_congr Iff.rfl ⟨fun h => ⟨h.lastUpdateId.symm, h.bids, h.asks⟩, ?_⟩
  rintro ⟨hid, hb, ha⟩
  exact ⟨hid.symm, hb, ha⟩

theorem safe_loadSnapshot_iff {id : ℤ} {bids asks : List (Level V)} {monotonic : ℚ}
    (h : (book.loadSnapshot id bids asks monotonic).1 = .error e) :
    Safe book (book.loadSnapshot id bids asks monotonic).2 ↔
      HarmlessSnapshot book id bids asks := by
  rcases book.loadSnapshot_cases id bids asks monotonic with
    ⟨e, hb, heq⟩ | ⟨b, e, hb, ha, heq⟩ | ⟨b, a, hb, ha, h'⟩
  · rw [heq, safe_holding_iff]
    simp [HarmlessSnapshot, hb, Side.Same.refl]
  · rw [heq, safe_holding_iff]
    simp [HarmlessSnapshot, hb, ha, Side.Same.refl]
  · rcases h' with ⟨hcomparable, heq⟩ | ⟨hnot, heq⟩ | ⟨-, heq⟩
    · rw [heq]
      simp [HarmlessSnapshot, hb, ha, hcomparable, Safe]
    · rw [heq, safe_holding_iff]
      simp [HarmlessSnapshot, hb, ha, hnot]
    · rw [heq] at h
      cases h

theorem written_eq {side b : Side V} {levels : List (Level V)} {answer : Except Exc Unit}
    (h : writeLevels side levels = (answer, b)) : b = side.writeAll (readable levels) := by
  rw [← writeLevels_snd, h]

theorem unreadable_of_error {side b : Side V} {levels : List (Level V)}
    (h : writeLevels side levels = (.error e, b)) : ∃ level ∈ levels, level.Unreadable := by
  by_contra hnone
  have hok := (writeLevels_fst side levels).mpr fun level hmem hun => hnone ⟨level, hmem, hun⟩
  rw [h] at hok
  cases hok

theorem readable_of_ok {side b : Side V} {levels : List (Level V)}
    (h : writeLevels side levels = (.ok (), b)) : ∀ level ∈ levels, ¬ level.Unreadable :=
  (writeLevels_fst side levels).mp (by rw [h])

theorem safe_writeDelta_iff {lastId : ℤ} {bids asks : List (Level V)} {monotonic : ℚ}
    (hvalid : book.valid = true) (hnew : book.lastUpdateId ≠ some lastId)
    (h : (book.writeDelta lastId bids asks monotonic).1 = .error e) :
    Safe book (book.writeDelta lastId bids asks monotonic).2 ↔ HarmlessDelta book bids asks := by
  rcases book.writeDelta_cases lastId bids asks monotonic with
    ⟨b, e, hb, heq⟩ | ⟨b, a, e, hb, ha, heq⟩ | ⟨b, a, hb, ha, h'⟩
  · obtain ⟨level, hmem, hun⟩ := unreadable_of_error hb
    have hnot : ¬ ∀ level ∈ bids, ¬ level.Unreadable := fun hall => hall level hmem hun
    have hex : ∃ level ∈ bids, level.Unreadable := ⟨level, hmem, hun⟩
    rw [heq, safe_holding_iff, written_eq hb, same_writeAll_iff]
    simp [HarmlessDelta, hvalid, Side.Same.refl, hnot, hex]
  · obtain ⟨level, hmem, hun⟩ := unreadable_of_error ha
    have hbids := readable_of_ok hb
    have hnot : ¬ ∀ level ∈ asks, ¬ level.Unreadable := fun hall => hall level hmem hun
    have hnone : ¬ ∃ level ∈ bids, level.Unreadable :=
      fun ⟨level, hmem, hun⟩ => hbids level hmem hun
    have hex : ∃ level ∈ asks, level.Unreadable := ⟨level, hmem, hun⟩
    rw [heq, safe_holding_iff, written_eq hb, written_eq ha, same_writeAll_iff, same_writeAll_iff,
      HarmlessDelta]
    constructor
    · rintro (hinvalid | ⟨-, hheld⟩)
      · exact absurd (hvalid.symm.trans hinvalid) (by simp)
      · exact ⟨fun hb => absurd hb hnone, fun _ _ => hheld, fun _ ha => absurd ha hnot⟩
    · rintro ⟨-, hheld, -⟩
      exact .inr ⟨rfl, hheld hbids hex⟩
  · have hbids := readable_of_ok hb
    have hasks := readable_of_ok ha
    have hnone : ¬ ∃ level ∈ bids, level.Unreadable :=
      fun ⟨level, hmem, hun⟩ => hbids level hmem hun
    have hnone' : ¬ ∃ level ∈ asks, level.Unreadable :=
      fun ⟨level, hmem, hun⟩ => hasks level hmem hun
    have hharmless : HarmlessDelta book bids asks ↔ Comparable b a := by
      rw [HarmlessDelta, ← written_eq hb, ← written_eq ha]
      exact ⟨fun hd => hd.2.2 hbids hasks, fun hc =>
        ⟨fun hex => absurd hex hnone, fun _ hex => absurd hex hnone', fun _ _ => hc⟩⟩
    rw [hharmless]
    rcases h' with ⟨hcomparable, heq⟩ | ⟨hnot, heq⟩ | ⟨-, heq⟩
    · rw [heq]
      simp [hcomparable, Safe]
    · rw [heq, safe_holding_iff]
      simp [hnot, hvalid, hnew]
    · rw [heq] at h
      cases h

variable [ChecksumRuntime V]

omit [Zero V] in
theorem safe_verifyExchangeChecksum {expectedHex : Option String} {depth : Option ℤ}
    (h : (book.verifyExchangeChecksum expectedHex depth).1 = .error e) :
    Safe book (book.verifyExchangeChecksum expectedHex depth).2 := by
  unfold LocalOrderBook.verifyExchangeChecksum at h ⊢
  split at h
  · cases h
  · split
    · exact .inl (.refl book)
    · split
      · exact .inl (.refl book)
      · split
        · simp_all
        · exact .inr rfl

/-- **When a failed update is safe.** -/
theorem failed_update_safe_iff (call : Call V) (h : (act book call).1 = .error e) :
    Safe book (act book call).2 ↔ Harmless book call := by
  cases call with
  | loadSnapshot id bids asks monotonic =>
    exact safe_loadSnapshot_iff (map_eq_error_iff.mp h)
  | verifyExchangeChecksum expectedHex depth =>
    exact iff_of_true (safe_verifyExchangeChecksum (map_eq_error_iff.mp h)) trivial
  | applyDelta firstId lastId bids asks monotonic =>
    have herror : (book.applyDelta firstId lastId bids asks monotonic).1 = .error e :=
      map_eq_error_iff.mp h
    change Safe book (book.applyDelta firstId lastId bids asks monotonic).2 ↔
      (book.Follows firstId lastId → HarmlessDelta book bids asks)
    rcases book.applyDelta_cases firstId lastId bids asks monotonic with
      ⟨hrefused, heq⟩ | ⟨-, heq⟩ | ⟨⟨hvalid, last, hlast, hnew, hgap⟩, heq⟩ | ⟨hfollows, heq⟩
    · rw [heq]
      refine iff_of_true (.inl (.refl book)) fun ⟨hvalid, last, hlast, _⟩ => ?_
      rcases hrefused with hnone | hinvalid
      · simp [hnone] at hlast
      · simp [hinvalid] at hvalid
    · rw [heq] at herror
      cases herror
    · rw [heq]
      refine iff_of_true (.inr rfl) fun ⟨_, last', hlast', _, hno⟩ => ?_
      rw [hlast, Option.some.injEq] at hlast'
      omega
    · rw [heq] at herror ⊢
      have ⟨hvalid, last, hlast, hnew, _⟩ := hfollows
      have hne : book.lastUpdateId ≠ some lastId := by
        rw [hlast, ne_eq, Option.some.injEq]
        exact hnew.ne
      rw [safe_writeDelta_iff hvalid hne herror]
      exact ⟨fun hd _ => hd, fun hd => hd hfollows⟩

/-! ## 4. A snapshot that cannot be read -/

attribute [local instance] plainChecksum

/-- A bid whose price is no decimal. -/
def malformed : Level ℚ := ⟨.error .invalidOperation, .ok (.number 1)⟩

/-- The next delta, whose first bid cannot be read. -/
def malformedDelta : Call ℚ := .applyDelta 12 12 [malformed] [] 2

theorem failed_update_safe_iff_malformedDelta :
    Safe (bookAfter 3) (act (bookAfter 3) malformedDelta).2 := by
  have hunreadable : malformed.Unreadable := .inl ⟨_, rfl⟩
  have hnot : ¬ ∀ level ∈ [malformed], ¬ level.Unreadable :=
    fun h => h malformed (.head _) hunreadable
  refine (failed_update_safe_iff (e := .invalidOperation) malformedDelta
    (by decide)).mpr fun _ => ⟨fun _ => ⟨?_, ?_⟩, fun h => absurd h hnot,
      fun h => absurd h hnot⟩
  · intro x v hlast
    cases hlast
  · intro q hq
    cases hq

/-- **The old levels stay in service under a new number.** -/
theorem renumbered_in_service :
    (act (bookAfter 3) (.loadSnapshot 20 [malformed] [] 2)).1 = .error .invalidOperation ∧
      ¬ Safe (bookAfter 3) (act (bookAfter 3) (.loadSnapshot 20 [malformed] [] 2)).2 := by
  refine ⟨by decide, ?_⟩
  rintro (hsame | hinvalid)
  · have hid := hsame.lastUpdateId
    revert hid
    decide
  · revert hinvalid
    decide

end Kripto.Data
