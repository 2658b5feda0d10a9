/-
# The book and the exchange's log

The exchange numbers the updates of its book and sends them in batches: of a range of numbers, the
quantity each price has in the end.  A batch may begin with updates the book has seen, as these
say what a price has and not what is added to it.

* `replay_faithful`: while the book is valid it is the last snapshot with the log up to the book's
  number on it, if the snapshots agree with the log.

`snapshot_out_of_step` is a snapshot that lacks an update it is numbered after: a batch that
overlaps it brings the update back.
-/
import Kripto.Data.FailedUpdate

namespace Kripto.Data

open Effect

variable {V : Type} [LinearOrder V] [Zero V]

/-! ## 1. The exchange -/

inductive BookSide
  | bids
  | asks
  deriving DecidableEq

/-- From this number on, the price has this quantity. -/
structure Update (V : Type) where
  id : ℤ
  side : BookSide
  price : V
  qty : Decimal V
  deriving DecidableEq

/-- The log of an exchange: a price whose quantity is zero has left the book. -/
structure UpdateLog (V : Type) where
  updates : List (Update V)
  inOrder : updates.Pairwise fun u u' => u.id ≤ u'.id

/-- What is stored for a quantity. -/
def kept (q : Decimal V) : Option (Decimal V) := if q = .number 0 then none else some q

def Update.change (u : Update V) : Change V (Decimal V) := (u.price, kept u.qty)

/-- The quantity a price has after these updates, if one of them is of the price. -/
def finalQty (updates : List (Update V)) (price : V) : Option (Decimal V) :=
  ((updates.filter fun u => u.price = price).getLast?).map (·.qty)

namespace UpdateLog

variable (log : UpdateLog V) (side : BookSide)

/-- The updates of one side in a range of numbers. -/
def range (first last : ℤ) : List (Update V) :=
  log.updates.filter fun u => u.side = side ∧ first ≤ u.id ∧ u.id ≤ last

/-- What the updates of one side up to a number leave. -/
def fold (held : V → Option (Decimal V)) (last : ℤ) : V → Option (Decimal V) :=
  after held ((log.updates.filter fun u => u.side = side ∧ u.id ≤ last).map Update.change)

end UpdateLog

/-- A side of a batch: each price of the range with the quantity it has in the end. -/
structure Carries (levels : List (Level V)) (updates : List (Update V)) : Prop where
  numbers : ∀ level ∈ levels, ∃ x q, level = ⟨.ok (.number x), .ok q⟩
  final : ∀ x q, ⟨.ok (.number x), .ok q⟩ ∈ levels ↔ finalQty updates x = some q

/-- What a snapshot leaves: its number and its sides. -/
structure Snapshot (V : Type) [DecidableEq V] where
  id : ℤ
  bids : Side V
  asks : Side V

def Snapshot.side (snapshot : Snapshot V) : BookSide → Side V
  | .bids => snapshot.bids
  | .asks => snapshot.asks

def LocalOrderBook.side (self : LocalOrderBook V) : BookSide → Side V
  | .bids => self.bids
  | .asks => self.asks

/-- The snapshot has what the log says up to its number. -/
def Snapshot.Agrees (snapshot : Snapshot V) (log : UpdateLog V) : Prop :=
  ∀ side, log.fold side (snapshot.side side).get snapshot.id = (snapshot.side side).get

/-- The snapshot a call loads, if its levels can be read. -/
def Call.snapshot : Call V → Option (Snapshot V)
  | .loadSnapshot id bids asks _ =>
    match snapshotSide bids, snapshotSide asks with
    | .ok bids, .ok asks => some ⟨id, bids, asks⟩
    | _, _ => none
  | _ => none

/-- The batch is one of the log. -/
def Call.BatchOf (log : UpdateLog V) : Call V → Prop
  | .applyDelta firstId lastId bids asks _ =>
    Carries bids (log.range .bids firstId lastId) ∧ Carries asks (log.range .asks firstId lastId)
  | _ => True

/-- The call gives what an exchange gives: a batch of the log, or a snapshot of decimals that agrees
with the log. -/
def Call.Genuine (log : UpdateLog V) (call : Call V) : Prop :=
  call.BatchOf log ∧ ∀ id bids asks monotonic, call = .loadSnapshot id bids asks monotonic →
    ∃ snapshot, call.snapshot = some snapshot ∧ snapshot.Agrees log

/-! ## 2. A batch is its range of the log -/

omit [Zero V] in
theorem finalQty_cons (u : Update V) (updates : List (Update V)) (x : V) :
    finalQty (u :: updates) x =
      (finalQty updates x).or (if u.price = x then some u.qty else none) := by
  unfold finalQty
  by_cases hx : u.price = x
  · simp only [List.filter_cons, hx, decide_true, if_true, List.getLast?_cons]
    cases (updates.filter fun u => u.price = x).getLast? <;> rfl
  · simp [hx]

theorem lastChange_change (updates : List (Update V)) (x : V) :
    lastChange (updates.map Update.change) x = (finalQty updates x).map kept := by
  induction updates with
  | nil => rfl
  | cons u updates ih =>
    rw [List.map_cons, lastChange, ih, finalQty_cons]
    by_cases hx : u.price = x
    · cases finalQty updates x <;> simp [Update.change, hx]
    · cases finalQty updates x <;> simp [Update.change, hx]

variable {levels : List (Level V)} {updates : List (Update V)} {log : UpdateLog V}

omit [LinearOrder V] [Zero V] in
theorem mem_readable (h : ∀ level ∈ levels, ∃ x q, level = ⟨.ok (.number x), .ok q⟩)
    {p q : Decimal V} : (p, q) ∈ readable levels ↔ ⟨.ok p, .ok q⟩ ∈ levels := by
  induction levels with
  | nil => simp [readable]
  | cons level levels ih =>
    obtain ⟨⟨x, y, rfl⟩, hrest⟩ := List.forall_mem_cons.mp h
    rw [readable, List.mem_cons, List.mem_cons, ih hrest]
    simp

/-- **Writing a batch** does what its range of the log does. -/
theorem get_writeLevels (h : Carries levels updates) (side : Side V) :
    ∃ left, writeLevels side levels = (.ok (), left) ∧
      left.get = after side.get (updates.map Update.change) ∧
      left.unordered = side.unordered := by
  have hok : (writeLevels side levels).1 = .ok () := by
    refine (writeLevels_fst side levels).mpr fun level hmem => ?_
    obtain ⟨x, q, rfl⟩ := h.numbers level hmem
    simp [Level.Unreadable]
  refine ⟨side.writeAll (readable levels), ?_, ?_, ?_⟩
  · rw [← writeLevels_snd, ← hok]
  · rw [get_writeAll]
    refine after_congr (lastChange_summary fun x v => ?_)
    rw [lastChange_change, List.mem_filterMap, Option.map_eq_some_iff]
    constructor
    · rintro ⟨⟨p, q⟩, hmem, hchange⟩
      rw [mem_readable h.numbers] at hmem
      obtain ⟨y, q', heq⟩ := h.numbers _ hmem
      cases heq
      rw [asChange_number, Option.some.injEq, Prod.mk.injEq] at hchange
      obtain ⟨rfl, rfl⟩ := hchange
      exact ⟨q, (h.final y q).mp hmem, rfl⟩
    · rintro ⟨q, hq, rfl⟩
      exact ⟨(.number x, q), (mem_readable h.numbers).mpr ((h.final x q).mpr hq), rfl⟩
  · rw [unordered_writeAll, List.append_right_eq_self, List.filterMap_eq_nil_iff]
    rintro ⟨p, q⟩ hmem
    rw [mem_readable h.numbers] at hmem
    obtain ⟨y, q', heq⟩ := h.numbers _ hmem
    cases heq
    rfl

/-- The log of one side, as numbered changes. -/
def UpdateLog.numbered (log : UpdateLog V) (side : BookSide) : List (Numbered V (Decimal V)) :=
  (log.updates.filter fun u => u.side = side).map fun u => (u.id, u.change)

theorem UpdateLog.numbered_inOrder (log : UpdateLog V) (side : BookSide) :
    (log.numbered side).Pairwise fun c c' => c.1 ≤ c'.1 :=
  List.pairwise_map.mpr (log.inOrder.filter _)

theorem UpdateLog.fold_eq (side : BookSide) (held : V → Option (Decimal V)) (last : ℤ) :
    log.fold side held last = after held (upTo last (log.numbered side)) := by
  unfold UpdateLog.fold UpdateLog.numbered upTo
  rw [List.filter_map, List.filter_filter, List.map_map]
  refine congrArg _ (congrArg₂ _ rfl (List.filter_congr fun u _ => ?_))
  rw [Bool.eq_iff_iff]
  simp [and_comm]

theorem UpdateLog.range_eq (side : BookSide) (first last : ℤ) :
    (log.range side first last).map Update.change = within first last (log.numbered side) := by
  unfold UpdateLog.range UpdateLog.numbered within upTo
  rw [List.filter_map, List.filter_filter, List.filter_map, List.filter_filter, List.map_map]
  refine congrArg₂ _ rfl (List.filter_congr fun u _ => ?_)
  rw [Bool.eq_iff_iff]
  simp [and_comm, and_assoc]

/-- **An overlapping batch** takes a side from one number of the log to another. -/
theorem fold_range {first last n : ℤ} (hfirst : first ≤ n + 1) (hn : n ≤ last) (side : BookSide)
    (held : V → Option (Decimal V)) :
    after (log.fold side held n) ((log.range side first last).map Update.change) =
      log.fold side held last := by
  rw [UpdateLog.fold_eq, UpdateLog.range_eq, UpdateLog.fold_eq,
    after_catchUp (log.numbered_inOrder side) hfirst hn]

/-! ## 3. Runs -/

/-- The snapshot that was loaded last. -/
def lastSnapshot (past : List (Call V × Answer)) : Option (Snapshot V) :=
  (past.filterMap fun entry => entry.1.snapshot).getLast?

/-- The book is the snapshot with the log up to this number on it. -/
structure Replays (log : UpdateLog V) (snapshot : Snapshot V) (last : ℤ)
    (book : LocalOrderBook V) : Prop where
  lastUpdateId : book.lastUpdateId = some last
  get : ∀ side, (book.side side).get = log.fold side (snapshot.side side).get last
  unordered : ∀ side, (book.side side).unordered = (snapshot.side side).unordered

variable {snapshot : Snapshot V} {last : ℤ} {book left : LocalOrderBook V}

theorem Replays.congr (h : Replays log snapshot last book)
    (hid : left.lastUpdateId = book.lastUpdateId) (hside : left.side = book.side) :
    Replays log snapshot last left :=
  ⟨hid.trans h.lastUpdateId, fun side => by rw [hside, h.get], fun side => by
    rw [hside, h.unordered]⟩

omit [Zero V] in
theorem side_eq (hb : left.bids = book.bids) (ha : left.asks = book.asks) :
    left.side = book.side := by
  funext side
  cases side with
  | bids => exact hb
  | asks => exact ha

theorem Call.snapshot_loadSnapshot {id : ℤ} {bids asks : List (Level V)} {monotonic : ℚ} :
    (Call.loadSnapshot id bids asks monotonic).snapshot = some snapshot ↔
      snapshotSide bids = .ok snapshot.bids ∧ snapshotSide asks = .ok snapshot.asks ∧
        snapshot.id = id := by
  obtain ⟨n, b, a⟩ := snapshot
  simp only [Call.snapshot]
  cases snapshotSide bids with
  | error e => simp
  | ok b' =>
    cases snapshotSide asks with
    | error e => simp
    | ok a' =>
      simp only [Option.some.injEq, Snapshot.mk.injEq, Except.ok.injEq]
      exact ⟨fun ⟨hid, hb, ha⟩ => ⟨hb, ha, hid.symm⟩, fun ⟨hb, ha, hid⟩ => ⟨hid.symm, hb, ha⟩⟩

/-- A snapshot that agrees with the log, as it is loaded, is the log over it. -/
theorem replays_loadSnapshot {id : ℤ} {bids asks : List (Level V)} {monotonic : ℚ}
    (hcall : (Call.loadSnapshot id bids asks monotonic).snapshot = some snapshot)
    (hagrees : snapshot.Agrees log)
    (hvalid : (book.loadSnapshot id bids asks monotonic).2.valid = true) :
    Replays log snapshot id (book.loadSnapshot id bids asks monotonic).2 := by
  obtain ⟨hb, ha, rfl⟩ := Call.snapshot_loadSnapshot.mp hcall
  have hloaded : Replays log snapshot snapshot.id
      (book.holding (some snapshot.id) snapshot.bids snapshot.asks) := by
    have hside : (book.holding (some snapshot.id) snapshot.bids snapshot.asks).side =
        snapshot.side := by
      funext side
      cases side <;> rfl
    exact ⟨rfl, fun side => by rw [hside, hagrees side], fun side => by rw [hside]⟩
  rcases book.loadSnapshot_cases snapshot.id bids asks monotonic with
    ⟨e, hb', -⟩ | ⟨b, e, -, ha', -⟩ | ⟨b, a, hb', ha', h⟩
  · rw [hb] at hb'
    cases hb'
  · rw [ha] at ha'
    cases ha'
  · rw [hb, Except.ok.injEq] at hb'
    rw [ha, Except.ok.injEq] at ha'
    subst hb' ha'
    rcases h with ⟨-, heq⟩ | ⟨-, heq⟩ | ⟨-, heq⟩
    · rw [heq] at hvalid
      cases hvalid
    · rw [heq]
      exact hloaded
    · rw [heq]
      exact hloaded.congr rfl (side_eq rfl rfl)

/-- A batch of the log that follows the book takes it to the batch's last number. -/
theorem replays_writeDelta (h : Replays log snapshot last book) {firstId lastId : ℤ}
    {bids asks : List (Level V)} {monotonic : ℚ} (hfirst : firstId ≤ last + 1)
    (hlast : last ≤ lastId) (hbids : Carries bids (log.range .bids firstId lastId))
    (hasks : Carries asks (log.range .asks firstId lastId))
    (hvalid : (book.writeDelta lastId bids asks monotonic).2.valid = true) :
    Replays log snapshot lastId (book.writeDelta lastId bids asks monotonic).2 := by
  obtain ⟨b, hb, hbget, hbun⟩ := get_writeLevels hbids book.bids
  obtain ⟨a, ha, haget, haun⟩ := get_writeLevels hasks book.asks
  have hwritten : Replays log snapshot lastId (book.holding (some lastId) b a) := by
    refine ⟨rfl, fun side => ?_, fun side => ?_⟩
    · cases side with
      | bids => exact hbget.trans (by rw [← fold_range hfirst hlast, ← h.get .bids]; rfl)
      | asks => exact haget.trans (by rw [← fold_range hfirst hlast, ← h.get .asks]; rfl)
    · cases side with
      | bids => exact hbun.trans (h.unordered .bids)
      | asks => exact haun.trans (h.unordered .asks)
  rcases book.writeDelta_cases lastId bids asks monotonic with
    ⟨b', e, hb', -⟩ | ⟨b', a', e, -, ha', -⟩ | ⟨b', a', hb', ha', h'⟩
  · rw [hb] at hb'
    cases hb'
  · rw [ha] at ha'
    cases ha'
  · rw [hb, Prod.mk.injEq] at hb'
    rw [ha, Prod.mk.injEq] at ha'
    obtain ⟨-, rfl⟩ := hb'
    obtain ⟨-, rfl⟩ := ha'
    rcases h' with ⟨-, heq⟩ | ⟨-, heq⟩ | ⟨-, heq⟩
    · rw [heq] at hvalid
      cases hvalid
    · rw [heq]
      exact hwritten
    · rw [heq]
      exact hwritten.congr rfl (side_eq rfl rfl)

/-- While it is valid, the book is the snapshot loaded last with the log on it. -/
def FollowsLog (log : UpdateLog V) (l : Log (LocalOrderBook V) (Call V) Answer) : Prop :=
  l.now.valid = true →
    ∃ snapshot last, lastSnapshot l.past = some snapshot ∧ Replays log snapshot last l.now

section

variable [ChecksumRuntime V] {l : Log (LocalOrderBook V) (Call V) Answer}

theorem lastSnapshot_call_some {call : Call V} (h : call.snapshot = some snapshot) :
    lastSnapshot (l.call act call).past = some snapshot := by
  simp [lastSnapshot, h]

theorem lastSnapshot_call_none {call : Call V} (h : call.snapshot = none) :
    lastSnapshot (l.call act call).past = lastSnapshot l.past := by
  simp [lastSnapshot, h]

omit [Zero V] in
/-- A checksum takes the book out of service or leaves it as it is. -/
theorem verifyExchangeChecksum_same {expectedHex : Option String} {depth : Option ℤ}
    (h : (book.verifyExchangeChecksum expectedHex depth).2.valid = true) :
    book.valid = true ∧
      (book.verifyExchangeChecksum expectedHex depth).2.lastUpdateId = book.lastUpdateId ∧
      (book.verifyExchangeChecksum expectedHex depth).2.side = book.side := by
  unfold LocalOrderBook.verifyExchangeChecksum at h ⊢
  split at h
  · exact ⟨h, rfl, side_eq rfl rfl⟩
  · split at h
    · rename_i hinvalid
      exact absurd (h.symm.trans hinvalid) (by simp)
    · rename_i hvalid
      have hbook : book.valid = true := by simpa using hvalid
      rw [if_neg hvalid]
      split
      · exact ⟨hbook, rfl, rfl⟩
      · split <;> exact ⟨hbook, rfl, side_eq rfl rfl⟩

/-- **One call** keeps the book with the log. -/
theorem followsLog_call (h : FollowsLog log l) {call : Call V} (hcall : call.Genuine log) :
    FollowsLog log (l.call act call) := by
  intro hvalid
  cases call with
  | loadSnapshot id bids asks monotonic =>
    obtain ⟨snapshot, hsnapshot, hagrees⟩ := hcall.2 id bids asks monotonic rfl
    exact ⟨snapshot, id, lastSnapshot_call_some hsnapshot,
      replays_loadSnapshot hsnapshot hagrees hvalid⟩
  | verifyExchangeChecksum expectedHex depth =>
    obtain ⟨hbefore, hid, hside⟩ := verifyExchangeChecksum_same hvalid
    obtain ⟨snapshot, last, hlast, hreplays⟩ := h hbefore
    exact ⟨snapshot, last, (lastSnapshot_call_none rfl).trans hlast, hreplays.congr hid hside⟩
  | applyDelta firstId lastId bids asks monotonic =>
    have hleft : (l.call act (.applyDelta firstId lastId bids asks monotonic)).now =
        (l.now.applyDelta firstId lastId bids asks monotonic).2 := rfl
    rw [hleft] at hvalid ⊢
    rcases l.now.applyDelta_cases firstId lastId bids asks monotonic with
      ⟨-, heq⟩ | ⟨-, heq⟩ | ⟨-, heq⟩ | ⟨⟨hbefore, n, hn, hnew, hfirst⟩, heq⟩
    · rw [heq] at hvalid ⊢
      obtain ⟨snapshot, last, hlast, hreplays⟩ := h hvalid
      exact ⟨snapshot, last, (lastSnapshot_call_none rfl).trans hlast, hreplays⟩
    · rw [heq] at hvalid ⊢
      obtain ⟨snapshot, last, hlast, hreplays⟩ := h hvalid
      exact ⟨snapshot, last, (lastSnapshot_call_none rfl).trans hlast,
        hreplays.congr rfl (side_eq rfl rfl)⟩
    · rw [heq] at hvalid
      cases hvalid
    · rw [heq] at hvalid ⊢
      obtain ⟨snapshot, last, hlast, hreplays⟩ := h hbefore
      obtain rfl : last = n := Option.some.inj (hreplays.lastUpdateId.symm.trans hn)
      exact ⟨snapshot, lastId, (lastSnapshot_call_none rfl).trans hlast,
        replays_writeDelta hreplays hfirst hnew.le hcall.1.1 hcall.1.2 hvalid⟩

/-- Without a snapshot, a book that is not valid stays so. -/
theorem act_invalid (h : book.valid = false) {call : Call V}
    (hcall : ∀ id bids asks monotonic, call ≠ .loadSnapshot id bids asks monotonic) :
    (act book call).2.valid = false := by
  cases call with
  | loadSnapshot id bids asks monotonic => exact absurd rfl (hcall id bids asks monotonic)
  | verifyExchangeChecksum expectedHex depth =>
    change (book.verifyExchangeChecksum expectedHex depth).2.valid = false
    by_contra hvalid
    obtain ⟨hbefore, -⟩ := verifyExchangeChecksum_same (Bool.not_eq_false _ ▸ hvalid)
    exact absurd (h.symm.trans hbefore) (by simp)
  | applyDelta firstId lastId bids asks monotonic =>
    change (book.applyDelta firstId lastId bids asks monotonic).2.valid = false
    rcases book.applyDelta_cases firstId lastId bids asks monotonic with
      ⟨-, heq⟩ | ⟨hstale, -⟩ | ⟨-, heq⟩ | ⟨hfollows, -⟩
    · rw [heq]
      exact h
    · exact absurd (h.symm.trans hstale.1) (by simp)
    · rw [heq]
    · exact absurd (h.symm.trans hfollows.1) (by simp)

theorem calls_invalid {calls : List (Call V)} (h : l.now.valid = false)
    (hcalls : ∀ call ∈ calls, ∀ id bids asks monotonic,
      call ≠ .loadSnapshot id bids asks monotonic) : (l.calls act calls).now.valid = false := by
  induction calls generalizing l with
  | nil => exact h
  | cons call calls ih =>
    exact ih (act_invalid h (hcalls call List.mem_cons_self))
      fun later hlater => hcalls later (List.mem_cons_of_mem _ hlater)

/-- What a delta does by how its numbers stand to the book's: one that is accepted brings the book
a greater number, a stale one is counted, and after a gap only a snapshot helps. -/
structure Sequenced (l : Log (LocalOrderBook V) (Call V) Answer) (firstId lastId : ℤ)
    (bids asks : List (Level V)) (monotonic : ℚ) : Prop where
  accepted : (l.now.applyDelta firstId lastId bids asks monotonic).1 = .ok true →
    ∃ last, l.now.lastUpdateId = some last ∧ last < lastId ∧
      (l.now.applyDelta firstId lastId bids asks monotonic).2.lastUpdateId = some lastId
  stale : l.now.Stale lastId → l.now.applyDelta firstId lastId bids asks monotonic =
    (.ok false, { l.now with staleEventCount := l.now.staleEventCount + 1 })
  gap : l.now.LeavesGap firstId lastId → ∀ later : List (Call V),
    (∀ call ∈ later, ∀ id bids asks monotonic, call ≠ .loadSnapshot id bids asks monotonic) →
    (l.calls act (.applyDelta firstId lastId bids asks monotonic :: later)).now.valid = false

theorem sequenced (l : Log (LocalOrderBook V) (Call V) Answer) (firstId lastId : ℤ)
    (bids asks : List (Level V)) (monotonic : ℚ) :
    Sequenced l firstId lastId bids asks monotonic := by
  have hnumber : ∀ {n n' : ℤ}, l.now.lastUpdateId = some n → l.now.lastUpdateId = some n' →
      n = n' := fun h h' => Option.some.inj (h.symm.trans h')
  rcases l.now.applyDelta_cases firstId lastId bids asks monotonic with
    ⟨hrefused, heq⟩ | ⟨⟨hvalid, n, hn, hle⟩, heq⟩ | ⟨⟨hvalid, n, hn, hlt, hgap⟩, heq⟩ |
      ⟨⟨hvalid, n, hn, hlt, hfirst⟩, heq⟩
  · have hnot : l.now.valid = true → ∀ n, l.now.lastUpdateId ≠ some n := by
      intro hvalid n hn
      rcases hrefused with hnone | hinvalid
      · simp [hnone] at hn
      · simp [hinvalid] at hvalid
    refine ⟨fun h => ?_, fun ⟨hvalid, n, hn, _⟩ => absurd hn (hnot hvalid n),
      fun ⟨hvalid, n, hn, _⟩ => absurd hn (hnot hvalid n)⟩
    rw [heq] at h
    cases h
  · refine ⟨fun h => ?_, fun _ => heq, fun ⟨_, n', hn', hlt', _⟩ => ?_⟩
    · rw [heq] at h
      cases h
    · obtain rfl := hnumber hn hn'
      omega
  · refine ⟨fun h => ?_, fun ⟨_, n', hn', hle'⟩ => ?_, fun _ later hlater => ?_⟩
    · rw [heq] at h
      cases h
    · obtain rfl := hnumber hn hn'
      omega
    · rw [Log.calls_cons]
      refine calls_invalid ?_ hlater
      change (l.now.applyDelta firstId lastId bids asks monotonic).2.valid = false
      rw [heq]
  · refine ⟨fun h => ⟨n, hn, hlt, ?_⟩, fun ⟨_, n', hn', hle'⟩ => ?_,
      fun ⟨_, n', hn', _, hgap'⟩ => ?_⟩
    · rw [heq] at h ⊢
      rcases l.now.writeDelta_cases lastId bids asks monotonic with
        ⟨b, e, -, heq'⟩ | ⟨b, a, e, -, -, heq'⟩ | ⟨b, a, -, -, h'⟩
      · rw [heq'] at h
        cases h
      · rw [heq'] at h
        cases h
      · rcases h' with ⟨-, heq'⟩ | ⟨-, heq'⟩ | ⟨-, heq'⟩ <;> rw [heq'] <;> rfl
    · obtain rfl := hnumber hn hn'
      omega
    · obtain rfl := hnumber hn hn'
      omega

/-- **The book is the exchange's** while it is valid: after any snapshots that agree with the log
and any of its batches, stale, overlapping or with a gap before them. -/
theorem replay_faithful {calls : List (Call V)}
    (h : Log.Meeting act (fun _ call => call.Genuine log) (Log.start {}) calls) :
    let l := (Log.start {}).calls act calls
    (l.now.valid = true →
      ∃ snapshot last, lastSnapshot l.past = some snapshot ∧ Replays log snapshot last l.now) ∧
    ∀ firstId lastId bids asks monotonic, Sequenced l firstId lastId bids asks monotonic := by
  refine ⟨?_, sequenced _⟩
  exact Log.keeps (I := FollowsLog log) (fun l call hl hcall => followsLog_call hl hcall)
    (fun hnew => absurd hnew (by simp)) h

end

/-! ## 4. A snapshot out of step -/

attribute [local instance] plainChecksum

/-- Three bids of one unit each. -/
def threeBids : UpdateLog ℚ where
  updates := [⟨4, .bids, 98, .number 1⟩, ⟨5, .bids, 100, .number 1⟩, ⟨6, .bids, 99, .number 1⟩]
  inOrder := by decide

/-- A snapshot after the second update, and the batch of the second and the third. -/
def snapshotThenBatch (bids : List (Level ℚ)) : List (Call ℚ) :=
  [.loadSnapshot 5 bids [] 0, .applyDelta 5 6 [levelOf 100 1, levelOf 99 1] [] 1]

def bookOf (bids : List (Level ℚ)) : LocalOrderBook ℚ :=
  ((Log.start {}).calls act (snapshotThenBatch bids)).now

theorem carries_secondThird :
    Carries [levelOf 100 1, levelOf 99 1] (threeBids.range .bids 5 6) ∧
      Carries [] (threeBids.range .asks 5 6) := by
  have hbids : threeBids.range .bids 5 6 =
      [⟨5, .bids, 100, .number 1⟩, ⟨6, .bids, 99, .number 1⟩] := by decide
  have hasks : threeBids.range .asks 5 6 = [] := by decide
  rw [hbids, hasks]
  refine ⟨⟨?_, fun x q => ?_⟩, ⟨by simp, by simp [finalQty]⟩⟩
  · intro level hmem
    rcases List.mem_pair.mp hmem with rfl | rfl
    · exact ⟨100, .number 1, rfl⟩
    · exact ⟨99, .number 1, rfl⟩
  · rw [finalQty_cons, finalQty_cons]
    by_cases h99 : (99 : ℚ) = x
    · subst h99
      simp [finalQty, levelOf, eq_comm]
    · by_cases h100 : (100 : ℚ) = x
      · subst h100
        simp [finalQty, levelOf, eq_comm]
      · simp [finalQty, levelOf, h99, h100, Ne.symm h99, Ne.symm h100]

theorem agrees_threeBids (snapshot : Snapshot ℚ) (hid : snapshot.id = 5)
    (h98 : snapshot.bids.get 98 = some (.number 1))
    (h100 : snapshot.bids.get 100 = some (.number 1)) : snapshot.Agrees threeBids := by
  intro side
  rw [hid]
  cases side with
  | asks =>
    have hnone : threeBids.updates.filter (fun u => u.side = .asks ∧ u.id ≤ 5) = [] := by decide
    rw [UpdateLog.fold, hnone]
    rfl
  | bids =>
    have htwo : threeBids.updates.filter (fun u => u.side = .bids ∧ u.id ≤ 5) =
        [⟨4, .bids, 98, .number 1⟩, ⟨5, .bids, 100, .number 1⟩] := by decide
    rw [UpdateLog.fold, htwo]
    have hkept : kept (.number (1 : ℚ)) = some (.number 1) := by decide
    have hfirst : Function.update snapshot.bids.get 98 (some (.number 1)) =
        snapshot.bids.get := by
      rw [← h98, Function.update_eq_self]
    have hsecond : Function.update snapshot.bids.get 100 (some (.number 1)) =
        snapshot.bids.get := by
      rw [← h100, Function.update_eq_self]
    simp [Update.change, hkept, Snapshot.side, hfirst, hsecond]

theorem replay_faithful_threeBids : ∃ snapshot last,
    lastSnapshot ((Log.start {}).calls act
      (snapshotThenBatch [levelOf 98 1, levelOf 100 1])).past = some snapshot ∧
    Replays threeBids snapshot last (bookOf [levelOf 98 1, levelOf 100 1]) := by
  have hcalls : Log.Meeting act (fun _ call => call.Genuine threeBids) (Log.start {})
      (snapshotThenBatch [levelOf 98 1, levelOf 100 1]) := by
    refine ⟨⟨trivial, ?_⟩, ⟨carries_secondThird, ?_⟩, trivial⟩
    · rintro id bids asks monotonic ⟨⟩
      exact ⟨_, rfl, agrees_threeBids _ rfl (by decide) (by decide)⟩
    · rintro id bids asks monotonic ⟨⟩
  exact (replay_faithful hcalls).1 (by decide)

/-- **A snapshot that lacks an update**: an empty one, numbered after the first two.  The batch,
which is one of the log, brings back the second; so the book is neither the snapshot with the
updates after it nor the snapshot with all of them. -/
theorem snapshot_out_of_step :
    (∀ call ∈ snapshotThenBatch [], call.BatchOf threeBids) ∧
    (bookOf []).valid = true ∧ (bookOf []).lastUpdateId = some 6 ∧
    (bookOf []).bids.get ≠
      after ({} : Side ℚ).get ((threeBids.range .bids 6 6).map Update.change) ∧
    (bookOf []).bids.get ≠ threeBids.fold .bids ({} : Side ℚ).get 6 := by
  refine ⟨?_, by decide, by decide, fun heq => ?_, fun heq => ?_⟩
  · intro call hcall
    rcases List.mem_pair.mp hcall with rfl | rfl
    · trivial
    · exact carries_secondThird
  · have h100 := congrFun heq 100
    revert h100
    decide
  · have h98 := congrFun heq 98
    revert h98
    decide

end Kripto.Data
