/-
# The outbox

`database/outbox.py`.  An event waits in the outbox until the publisher has taken it, or until
`max_attempts` calls of the publisher have failed; then it goes to the dead letters.  Either way
`published_at` is set.

`dispatch_once` goes through the unpublished rows in the order in which the query returns them and
commits at the end.  What the publisher has been called with is kept whether or not the commit
is reached.  `RowStep` says what a turn of the loop does to its event, and a whole dispatch is
at most one such step for each event (`dispatchOnce_view`).

Times are microseconds.  The rows have their columns as far as the code reads them.
-/
import Kripto.Effect.Outcome
import Kripto.Effect.Totals
import Kripto.Python.Json

namespace Kripto.Database

open Effect Python

/-! ## 1. Rows -/

inductive ResolutionState
  | OPEN
  | MIGRATED
  | REPLAY_PENDING
  | RESOLVED
  deriving DecidableEq

structure OutboxEvent where
  topic : String
  payload : Dict
  publishedAt : Option ℤ := none
  attempts : ℕ := 0
  nextAttemptAt : Option ℤ := none
  lastError : Option String := none

structure DeadLetterRow where
  originalEventId : String
  eventType : String
  schemaVersion : ℤ
  payloadHash : String
  failureReason : String
  attempts : ℕ
  firstFailedAt : ℤ
  lastFailedAt : ℤ
  resolutionState : ResolutionState

/-- Events by their ids, which are unique, and dead letters. -/
structure State where
  events : Table String OutboxEvent
  deadLetters : List DeadLetterRow

inductive Exc
  | lookupError (eventId : String)
  | runtimeError (msg : String)
  | dumpError (e : DumpError)
  | other (name : String)

/-- The dead letters of an event. -/
def State.lettersOf (s : State) (eventId : String) : List DeadLetterRow :=
  s.deadLetters.filter fun d => d.originalEventId = eventId

section Hashes

variable [Hashlib]

/-- `payload_hash`. -/
def payloadHash (payload : Dict) : Except DumpError String := do
  return Hashlib.sha256 (← (PyValue.dict payload).bytes { ensureAscii := false })

/-! ## 2. Dispatching -/

/-- What comes of a call of the publisher.  It is interrupted by an exception that is not an
`Exception`, or that has no text. -/
inductive Outcome
  | delivered
  | failed (msg : String)
  | interrupted

/-- A call of the publisher. -/
structure Attempt where
  eventId : String
  topic : String
  payload : Dict
  delivered : Bool

/-- The order in which a query returns rows. -/
structure RowOrder where
  order : List String → List String
  perm : ∀ ids, (order ids).Perm ids

/-- A call of `dispatch_once`, with what it meets. -/
structure Dispatch where
  now : ℤ
  rows : RowOrder
  publisher : String → Outcome
  jitter : String → ℕ

/-- The variables of the loop, the session's rows among them. -/
structure Batch where
  state : State
  attempts : List Attempt
  published : ℕ
  failed : ℕ

/-- The loop has raised. -/
structure Stopped where
  exc : Exc
  attempts : List Attempt

/-- `min(60, 2**attempts) + random()` seconds. -/
def backoff (attempts jitter : ℕ) : ℤ := min 60 (2 ^ attempts) * 1000000 + jitter

/-- The publisher failed for the last time. -/
def giveUp (now : ℤ) (eventId : String) (row : OutboxEvent) (msg : String) (s : State) :
    Except DumpError State :=
  let events := s.events.insert eventId { row with publishedAt := some now }
  if (s.lettersOf eventId).isEmpty then do
    let hash ← payloadHash row.payload
    return ⟨events, s.deadLetters ++
      [⟨eventId, row.topic, 1, hash, msg, row.attempts, now, now, .OPEN⟩]⟩
  else return ⟨events, s.deadLetters⟩

/-- A turn of the loop. -/
def dispatchRow (maxAttempts : ℤ) (call : Dispatch) (batch : Batch) (eventId : String) :
    Except Stopped Batch :=
  match batch.state.events.lookup eventId with
  | none => .ok batch
  | some row =>
    if row.nextAttemptAt.any (call.now < ·) then .ok batch
    else
      let attempts (delivered : Bool) : List Attempt :=
        batch.attempts ++ [⟨eventId, row.topic, row.payload, delivered⟩]
      match call.publisher eventId with
      | .delivered =>
        let row' := { row with publishedAt := some call.now }
        .ok ⟨⟨batch.state.events.insert eventId row', batch.state.deadLetters⟩, attempts true,
          batch.published + 1, batch.failed⟩
      | .failed msg =>
        let row' := { row with attempts := row.attempts + 1, lastError := some msg }
        if maxAttempts ≤ row'.attempts then
          match giveUp call.now eventId row' msg batch.state with
          | .ok state => .ok ⟨state, attempts false, batch.published, batch.failed + 1⟩
          | .error e => .error ⟨.dumpError e, attempts false⟩
        else
          let next := call.now + backoff row'.attempts (call.jitter eventId)
          .ok ⟨⟨batch.state.events.insert eventId { row' with nextAttemptAt := some next },
            batch.state.deadLetters⟩, attempts false, batch.published, batch.failed + 1⟩
      | .interrupted => .error ⟨.other "BaseException", attempts false⟩

/-- The ids of the rows with `published_at IS NULL`. -/
def State.unpublished (s : State) : List String :=
  s.events.keys.filter fun eventId => (s.events.lookup eventId).any fun row =>
    row.publishedAt.isNone

/-- The loop of `dispatch_once`. -/
def dispatchLoop (maxAttempts : ℤ) (call : Dispatch) (s : State) : Except Stopped Batch :=
  (call.rows.order s.unpublished).foldlM (dispatchRow maxAttempts call) ⟨s, [], 0, 0⟩

/-! ## 3. What a dispatch does to one event -/

/-- An event: its row, its dead letters, and the calls of the publisher for it. -/
structure View where
  row : Option OutboxEvent
  letters : List DeadLetterRow
  attempts : List Attempt

def attemptsOf (attempts : List Attempt) (eventId : String) : List Attempt :=
  attempts.filter fun attempt => attempt.eventId = eventId

def Batch.view (batch : Batch) (eventId : String) : View :=
  ⟨batch.state.events.lookup eventId, batch.state.lettersOf eventId,
    attemptsOf batch.attempts eventId⟩

/-- What a turn of the loop does to its event. -/
inductive RowStep (maxAttempts : ℤ) (call : Dispatch) (eventId : String) : View → View → Prop
  | waits {row : OutboxEvent} {letters : List DeadLetterRow} {attempts : List Attempt}
      (h : row.nextAttemptAt.any (call.now < ·) = true) :
      RowStep maxAttempts call eventId ⟨some row, letters, attempts⟩ ⟨some row, letters, attempts⟩
  | delivered {row : OutboxEvent} {letters : List DeadLetterRow} {attempts : List Attempt}
      (hdue : row.nextAttemptAt.any (call.now < ·) = false)
      (h : call.publisher eventId = .delivered) :
      RowStep maxAttempts call eventId ⟨some row, letters, attempts⟩
        ⟨some { row with publishedAt := some call.now }, letters,
          attempts ++ [⟨eventId, row.topic, row.payload, true⟩]⟩
  | retries {row : OutboxEvent} {letters : List DeadLetterRow} {attempts : List Attempt}
      {msg : String} (hdue : row.nextAttemptAt.any (call.now < ·) = false)
      (h : call.publisher eventId = .failed msg)
      (hleft : (row.attempts : ℤ) + 1 < maxAttempts) (next : ℤ) :
      RowStep maxAttempts call eventId ⟨some row, letters, attempts⟩
        ⟨some { row with
            attempts := row.attempts + 1, lastError := some msg, nextAttemptAt := some next },
          letters, attempts ++ [⟨eventId, row.topic, row.payload, false⟩]⟩
  | givesUp {row : OutboxEvent} {letters letters' : List DeadLetterRow} {attempts : List Attempt}
      {msg : String} (hdue : row.nextAttemptAt.any (call.now < ·) = false)
      (h : call.publisher eventId = .failed msg)
      (hlast : maxAttempts ≤ (row.attempts : ℤ) + 1)
      (hletters : letters ≠ [] ∧ letters' = letters ∨ letters = [] ∧ ∃ hash,
        payloadHash row.payload = .ok hash ∧ letters' = [⟨eventId, row.topic, 1, hash, msg,
          row.attempts + 1, call.now, call.now, .OPEN⟩]) :
      RowStep maxAttempts call eventId ⟨some row, letters, attempts⟩
        ⟨some { row with
            attempts := row.attempts + 1, lastError := some msg, publishedAt := some call.now },
          letters', attempts ++ [⟨eventId, row.topic, row.payload, false⟩]⟩

variable {maxAttempts : ℤ} {call : Dispatch} {batch batch' : Batch} {eventId other : String}
  {s s' : State} {row : OutboxEvent} {now : ℤ} {msg : String}

omit [Hashlib] in
theorem lookup_insert_ne (h : other ≠ eventId) :
    (s.events.insert eventId row).lookup other = s.events.lookup other :=
  AList.lookup_insert_ne h

omit [Hashlib] in
theorem attemptsOf_append (attempts : List Attempt) (topic : String) (payload : Dict)
    (delivered : Bool) :
    attemptsOf (attempts ++ [⟨eventId, topic, payload, delivered⟩]) eventId =
      attemptsOf attempts eventId ++ [⟨eventId, topic, payload, delivered⟩] := by
  simp [attemptsOf]

omit [Hashlib] in
theorem attemptsOf_append_ne (h : other ≠ eventId) (attempts : List Attempt) (topic : String)
    (payload : Dict) (delivered : Bool) :
    attemptsOf (attempts ++ [⟨eventId, topic, payload, delivered⟩]) other =
      attemptsOf attempts other := by
  simp [attemptsOf, h.symm]

omit [Hashlib] in
theorem lettersOf_append {d : DeadLetterRow} (deadLetters : List DeadLetterRow)
    (events : Table String OutboxEvent) (eventId : String) :
    State.lettersOf ⟨events, deadLetters ++ [d]⟩ eventId =
      State.lettersOf ⟨events, deadLetters⟩ eventId ++
        if d.originalEventId = eventId then [d] else [] := by
  by_cases h : d.originalEventId = eventId <;> simp [State.lettersOf, h]

/-- **Giving up** marks the row as published and leaves a dead letter, if there is none. -/
theorem giveUp_eq_ok (h : giveUp now eventId row msg s = .ok s') :
    s'.events = s.events.insert eventId { row with publishedAt := some now } ∧
      (∀ other, other ≠ eventId → s'.lettersOf other = s.lettersOf other) ∧
      (s.lettersOf eventId ≠ [] ∧ s'.lettersOf eventId = s.lettersOf eventId ∨
        s.lettersOf eventId = [] ∧ ∃ hash, payloadHash row.payload = .ok hash ∧
          s'.lettersOf eventId =
            [⟨eventId, row.topic, 1, hash, msg, row.attempts, now, now, .OPEN⟩]) := by
  simp only [giveUp] at h
  split at h
  · rename_i hempty
    rw [bind_eq_ok_iff] at h
    obtain ⟨hash, hhash, hs⟩ := h
    rw [pure_eq_ok, Except.ok.injEq] at hs
    rw [List.isEmpty_iff] at hempty
    refine ⟨by rw [← hs], fun other hne => ?_, .inr ⟨hempty, hash, hhash, ?_⟩⟩
    · rw [← hs, lettersOf_append, if_neg hne.symm, List.append_nil]
      rfl
    · rw [← hs, lettersOf_append, if_pos rfl]
      exact congrArg (· ++ _) hempty
  · rename_i hsome
    rw [List.isEmpty_iff] at hsome
    rw [pure_eq_ok, Except.ok.injEq] at h
    rw [← h]
    exact ⟨rfl, fun _ _ => rfl, .inl ⟨hsome, rfl⟩⟩

/-- **A turn of the loop** is a step of its event and leaves the others alone. -/
theorem dispatchRow_view (h : dispatchRow maxAttempts call batch eventId = .ok batch')
    (hrow : batch.state.events.lookup eventId = some row) :
    RowStep maxAttempts call eventId (batch.view eventId) (batch'.view eventId) ∧
      ∀ other, other ≠ eventId → batch'.view other = batch.view other := by
  have hview : batch.view eventId =
      ⟨some row, batch.state.lettersOf eventId, attemptsOf batch.attempts eventId⟩ := by
    rw [Batch.view, hrow]
  simp only [dispatchRow, hrow] at h
  split at h
  · rename_i hwaits
    cases h
    rw [hview]
    exact ⟨.waits hwaits, fun _ _ => rfl⟩
  · rename_i hnot
    have hdue : row.nextAttemptAt.any (call.now < ·) = false := Bool.eq_false_iff.mpr hnot
    split at h
    · rename_i hdelivered
      cases h
      refine ⟨?_, fun other hne => ?_⟩
      · rw [hview, Batch.view, AList.lookup_insert, attemptsOf_append]
        exact .delivered hdue hdelivered
      · rw [Batch.view, lookup_insert_ne hne, attemptsOf_append_ne hne]
        rfl
    · rename_i msg hfailed
      split at h
      · rename_i hlast
        split at h
        · rename_i s' hgiveUp
          cases h
          obtain ⟨hevents, hothers, hletters⟩ := giveUp_eq_ok hgiveUp
          refine ⟨?_, fun other hne => ?_⟩
          · rw [hview, Batch.view, hevents, AList.lookup_insert, attemptsOf_append]
            exact .givesUp hdue hfailed (by simpa using hlast) hletters
          · rw [Batch.view, hevents, lookup_insert_ne hne, attemptsOf_append_ne hne,
              hothers other hne]
            rfl
        · cases h
      · rename_i hleft
        cases h
        refine ⟨?_, fun other hne => ?_⟩
        · rw [hview, Batch.view, AList.lookup_insert, attemptsOf_append]
          exact .retries hdue hfailed (by push_cast at hleft; omega) _
        · rw [Batch.view, lookup_insert_ne hne, attemptsOf_append_ne hne]
          rfl
    · cases h

omit [Hashlib] in
theorem mem_unpublished_iff :
    eventId ∈ s.unpublished ↔
      ∃ row, s.events.lookup eventId = some row ∧ row.publishedAt = none := by
  rw [State.unpublished, List.mem_filter, ← AList.mem_keys, ← AList.lookup_isSome]
  cases s.events.lookup eventId <;> simp

/-- The event before a dispatch. -/
def State.view (s : State) (eventId : String) : View :=
  ⟨s.events.lookup eventId, s.lettersOf eventId, []⟩

/-- **A dispatch** that goes through is a step of each unpublished event and leaves the others
alone. -/
theorem dispatchLoop_view (h : dispatchLoop maxAttempts call s = .ok batch) (eventId : String) :
    (eventId ∈ s.unpublished →
      RowStep maxAttempts call eventId (s.view eventId) (batch.view eventId)) ∧
    (eventId ∉ s.unpublished → batch.view eventId = s.view eventId) := by
  have hperm := call.rows.perm s.unpublished
  have hnodup : (call.rows.order s.unpublished).Nodup :=
    hperm.nodup_iff.mpr ((AList.keys_nodup _).filter _)
  have hloop : (call.rows.order s.unpublished).Nodup →
      (∀ id ∈ call.rows.order s.unpublished, id ∈ s.unpublished) → ∀ id,
      (id ∈ call.rows.order s.unpublished →
        RowStep maxAttempts call id (s.view id) (batch.view id)) ∧
      (id ∉ call.rows.order s.unpublished → batch.view id = s.view id) := by
    refine foldlM_keeps (I := fun ids batch => ids.Nodup → (∀ id ∈ ids, id ∈ s.unpublished) → ∀ id,
      (id ∈ ids → RowStep maxAttempts call id (s.view id) (batch.view id)) ∧
      (id ∉ ids → batch.view id = s.view id)) ?_ ?_ h
    · intro _ _ id
      exact ⟨fun hid => absurd hid List.not_mem_nil, fun _ => rfl⟩
    · intro ids id batch batch' hids hrow hnodup hmem other
      rw [List.nodup_append] at hnodup
      obtain ⟨hids', -, hdisjoint⟩ := hnodup
      have hfresh : id ∉ ids := fun hid => hdisjoint id hid id (by simp) rfl
      have hold := hids hids' fun id hid => hmem id (List.mem_append_left _ hid)
      obtain ⟨row, hlookup, -⟩ := mem_unpublished_iff.mp (hmem id (by simp))
      have hsame := (hold id).2 hfresh
      have hlookup' : batch.state.events.lookup id = some row :=
        (congrArg View.row hsame).trans hlookup
      obtain ⟨hstep, hframe⟩ := dispatchRow_view hrow hlookup'
      by_cases hother : other = id
      · subst hother
        exact ⟨fun _ => hsame ▸ hstep, fun hnot => absurd (by simp) hnot⟩
      · rw [hframe other hother]
        simpa [hother] using hold other
  have := hloop hnodup (fun id hid => hperm.mem_iff.mp hid) eventId
  rwa [hperm.mem_iff] at this

end Hashes

end Kripto.Database
