/-
# The dead-letter operator

`database/dlq_operator.py`: an operator looks at a dead letter, may migrate its payload, schedules
its event for another round of the dispatcher, and marks it as resolved.  Each call names the hash
of the payload the operator has seen.

`outbox` puts the operator and the dispatcher over one database, together with the services that
write events.  Each call comes with what it meets: whether its commit succeeds, what the
publisher does, and what the JSON column holds once a payload has been written to it.
`EventStep` says what a call does to one event (`outbox_step`).
-/
import Kripto.Database.Outbox
import Kripto.Effect.Object

namespace Kripto.Database

open Effect Python

/-! ## 1. Calls -/

/-- A dead letter as an operator sees it. -/
structure DeadLetterInspection where
  originalEventId : String
  eventType : String
  schemaVersion : ℤ
  payloadHash : String
  failureReason : String
  attempts : ℕ
  resolutionState : ResolutionState
  payload : Dict

/-- The arguments of `migrate_payload`, and what the column holds once the migrated payload has
been written over the old one. -/
structure Migration where
  expectedHash : String
  newSchemaVersion : ℤ
  migrator : Dict → Except Exc Dict
  column : Dict → Dict → Dict

inductive Request
  | insert (eventId topic : String) (payload : Dict)
  | dispatchOnce (call : Dispatch)
  | inspect (eventId : String)
  | migratePayload (eventId : String) (migration : Migration)
  | scheduleReplay (eventId expectedHash : String)
  | markResolved (eventId : String)

structure Call where
  request : Request
  commits : Bool

inductive Result
  | done
  | dispatched (published failed : ℕ)
  | inspection (i : DeadLetterInspection)

/-- What a call answers, and how it has called the publisher. -/
structure Answer where
  result : Except Exc Result
  attempts : List Attempt

section Hashes

variable [Hashlib]

/-! ## 2. The operator -/

/-- `query(DeadLetterRow).one_or_none()`. -/
def deadLetterOf (s : State) (eventId : String) : Except Exc (Option DeadLetterRow) :=
  match s.lettersOf eventId with
  | [] => .ok none
  | [d] => .ok (some d)
  | _ => .error (.other "MultipleResultsFound")

/-- The dead letter and the row of an event. -/
def find (s : State) (eventId : String) : Except Exc (DeadLetterRow × OutboxEvent) := do
  match ← deadLetterOf s eventId, s.events.lookup eventId with
  | some dlq, some row => return (dlq, row)
  | _, _ => .error (.lookupError eventId)

/-- `payload_hash` of a row. -/
def hashOf (payload : Dict) : Except Exc String :=
  match payloadHash payload with
  | .ok hash => .ok hash
  | .error e => .error (.dumpError e)

def raiseIf (c : Prop) [Decidable c] (msg : String) : Except Exc Unit :=
  if c then .error (.runtimeError msg) else .ok ()

def inspect (s : State) (eventId : String) : Except Exc DeadLetterInspection := do
  let (dlq, row) ← find s eventId
  let actual ← hashOf row.payload
  raiseIf (dlq.payloadHash ≠ "" ∧ dlq.payloadHash ≠ actual) "DEAD_LETTER_PAYLOAD_HASH_MISMATCH"
  return ⟨dlq.originalEventId, dlq.eventType, dlq.schemaVersion, actual, dlq.failureReason,
    dlq.attempts, dlq.resolutionState, row.payload⟩

/-- The dead letters of an event are set to `dlq`. -/
def State.setLetter (s : State) (eventId : String) (dlq : DeadLetterRow) : List DeadLetterRow :=
  s.deadLetters.map fun d => if d.originalEventId = eventId then dlq else d

/-- `s.commit()`. -/
def commit (commits : Bool) (s : State) : Except Exc State :=
  if commits then .ok s else .error (.other "CommitError")

def migratePayload (commits : Bool) (s : State) (eventId : String) (migration : Migration) :
    Except Exc State := do
  let (dlq, row) ← find s eventId
  raiseIf (dlq.resolutionState ∉ [.OPEN, .MIGRATED]) "DEAD_LETTER_NOT_MIGRATABLE"
  let current ← hashOf row.payload
  raiseIf (current ≠ migration.expectedHash) "DEAD_LETTER_STALE_OPERATOR_VIEW"
  let migrated ← migration.migrator row.payload
  let hash ← hashOf migrated
  let dlq' := { dlq with
    schemaVersion := migration.newSchemaVersion, payloadHash := hash, resolutionState := .MIGRATED }
  commit commits ⟨s.events.insert eventId
    { row with payload := migration.column row.payload migrated }, s.setLetter eventId dlq'⟩

def scheduleReplay (commits : Bool) (s : State) (eventId expectedHash : String) :
    Except Exc State := do
  let (dlq, row) ← find s eventId
  let current ← hashOf row.payload
  raiseIf (current ≠ expectedHash ∨ dlq.payloadHash ≠ expectedHash)
    "DEAD_LETTER_REPLAY_HASH_MISMATCH"
  raiseIf (dlq.resolutionState ∉ [.OPEN, .MIGRATED]) "DEAD_LETTER_NOT_REPLAYABLE"
  commit commits ⟨s.events.insert eventId
      { row with publishedAt := none, attempts := 0, nextAttemptAt := none, lastError := none },
    s.setLetter eventId { dlq with resolutionState := .REPLAY_PENDING }⟩

def markResolved (commits : Bool) (s : State) (eventId : String) : Except Exc State := do
  let (dlq, row) ← find s eventId
  raiseIf (dlq.resolutionState ≠ .REPLAY_PENDING ∨ row.publishedAt = none)
    "DEAD_LETTER_REPLAY_NOT_CONFIRMED"
  commit commits ⟨s.events, s.setLetter eventId { dlq with resolutionState := .RESOLVED }⟩

/-- A service writes an event; its id is unique. -/
def insertEvent (commits : Bool) (s : State) (eventId topic : String) (payload : Dict) :
    Except Exc State :=
  if eventId ∈ s.events then .error (.other "IntegrityError")
  else commit commits ⟨s.events.insert eventId { topic := topic, payload := payload },
    s.deadLetters⟩

/-! ## 3. The system -/

/-- A call that changes the database only if it goes through. -/
def answer (s : State) : Except Exc State → Answer × State
  | .ok s' => (⟨.ok .done, []⟩, s')
  | .error e => (⟨.error e, []⟩, s)

/-- `dispatch_once`. -/
def dispatchOnce (maxAttempts : ℤ) (commits : Bool) (s : State) (call : Dispatch) :
    Answer × State :=
  match dispatchLoop maxAttempts call s with
  | .error stopped => (⟨.error stopped.exc, stopped.attempts⟩, s)
  | .ok batch =>
    match commit commits batch.state with
    | .ok s' => (⟨.ok (.dispatched batch.published batch.failed), batch.attempts⟩, s')
    | .error e => (⟨.error e, batch.attempts⟩, s)

/-- The answer of `inspect`. -/
def inspection (s : State) (eventId : String) : Answer :=
  ⟨(inspect s eventId).map .inspection, []⟩

/-- The dispatcher, the operator and the services over one database. -/
def outbox (maxAttempts : ℤ) : Object State Call Answer := fun s k =>
  match k.request with
  | .insert eventId topic payload => answer s (insertEvent k.commits s eventId topic payload)
  | .dispatchOnce call => dispatchOnce maxAttempts k.commits s call
  | .inspect eventId => (inspection s eventId, s)
  | .migratePayload eventId migration =>
    match migratePayload k.commits s eventId migration with
    | .ok s' => (inspection s' eventId, s')
    | .error e => (⟨.error e, []⟩, s)
  | .scheduleReplay eventId expectedHash =>
    answer s (scheduleReplay k.commits s eventId expectedHash)
  | .markResolved eventId => answer s (markResolved k.commits s eventId)

/-- Nothing has been written yet. -/
def State.empty : State := ⟨∅, []⟩

/-! ## 4. What a call does to one event -/

/-- One call, seen by one event.  `kept` is also what a call does that raises, or that is about
another event. -/
inductive EventStep (maxAttempts : ℤ) (eventId : String) (k : Call) (a : Answer) :
    View → View → Prop
  | kept {v : View} (hattempts : a.result.isOk = true → attemptsOf a.attempts eventId = [])
      (hinsert : ∀ topic payload, k.request = .insert eventId topic payload →
        a.result.isOk = false)
      (hreplay : ∀ hash, k.request = .scheduleReplay eventId hash → a.result.isOk = false)
      (hresolved : k.request = .markResolved eventId → a.result.isOk = false) :
      EventStep maxAttempts eventId k a v v
  | inserted {letters : List DeadLetterRow} {topic : String} {payload : Dict}
      (hk : k.request = .insert eventId topic payload) (ha : a = ⟨.ok .done, []⟩) :
      EventStep maxAttempts eventId k a ⟨none, letters, []⟩
        ⟨some { topic := topic, payload := payload }, letters, []⟩
  | dispatched {call : Dispatch} {row row' : OutboxEvent} {letters letters' : List DeadLetterRow}
      (hk : k.request = .dispatchOnce call) (ha : a.result.isOk = true)
      (hopen : row.publishedAt = none)
      (hstep : RowStep maxAttempts call eventId ⟨some row, letters, []⟩
        ⟨some row', letters', attemptsOf a.attempts eventId⟩) :
      EventStep maxAttempts eventId k a ⟨some row, letters, []⟩ ⟨some row', letters', []⟩
  | migrated {migration : Migration} {row : OutboxEvent} {dlq : DeadLetterRow} {payload : Dict}
      {hash : String} (hk : k.request = .migratePayload eventId migration) (ha : a.attempts = [])
      (hstate : dlq.resolutionState ∈ [.OPEN, .MIGRATED])
      (hcurrent : payloadHash row.payload = .ok migration.expectedHash)
      (hmigrator : migration.migrator row.payload = .ok payload)
      (hhash : payloadHash payload = .ok hash) :
      EventStep maxAttempts eventId k a ⟨some row, [dlq], []⟩
        ⟨some { row with payload := migration.column row.payload payload },
          [{ dlq with
            schemaVersion := migration.newSchemaVersion, payloadHash := hash,
            resolutionState := .MIGRATED }], []⟩
  | scheduled {row : OutboxEvent} {dlq : DeadLetterRow} {hash : String}
      (hk : k.request = .scheduleReplay eventId hash) (ha : a = ⟨.ok .done, []⟩)
      (hhash : payloadHash row.payload = .ok hash) (hdlq : dlq.payloadHash = hash)
      (hstate : dlq.resolutionState ∈ [.OPEN, .MIGRATED]) :
      EventStep maxAttempts eventId k a ⟨some row, [dlq], []⟩
        ⟨some { row with
            publishedAt := none, attempts := 0, nextAttemptAt := none, lastError := none },
          [{ dlq with resolutionState := .REPLAY_PENDING }], []⟩
  | resolved {row : OutboxEvent} {dlq : DeadLetterRow}
      (hk : k.request = .markResolved eventId) (ha : a = ⟨.ok .done, []⟩)
      (hstate : dlq.resolutionState = .REPLAY_PENDING) (hpublished : row.publishedAt ≠ none) :
      EventStep maxAttempts eventId k a ⟨some row, [dlq], []⟩
        ⟨some row, [{ dlq with resolutionState := .RESOLVED }], []⟩

variable {s s' : State} {eventId other hash : String} {dlq dlq' : DeadLetterRow}
  {row : OutboxEvent} {commits : Bool} {payload : Dict} {maxAttempts : ℤ} {k : Call}

omit [Hashlib] in
@[simp] theorem raiseIf_eq_ok_iff {c : Prop} [Decidable c] {msg : String} {u : Unit} :
    raiseIf c msg = .ok u ↔ ¬ c := by
  by_cases h : c <;> simp [raiseIf, h]

omit [Hashlib] in
@[simp] theorem commit_eq_ok_iff : commit commits s = .ok s' ↔ commits = true ∧ s = s' := by
  cases commits <;> simp [commit]

omit [Hashlib] in
theorem find_eq_ok (h : find s eventId = .ok (dlq, row)) :
    s.view eventId = ⟨some row, [dlq], []⟩ ∧ dlq.originalEventId = eventId := by
  simp only [find, bind_eq_ok_iff] at h
  obtain ⟨found, hfound, hrow⟩ := h
  split at hrow
  · rename_i d r hr
    cases hrow
    have hletters : s.lettersOf eventId = [dlq] := by
      unfold deadLetterOf at hfound
      split at hfound <;> simp_all
    have hmem : dlq ∈ s.lettersOf eventId := by simp [hletters]
    refine ⟨by rw [State.view, hr, hletters], ?_⟩
    simpa using (List.mem_filter.mp hmem).2
  · cases hrow

@[simp] theorem hashOf_eq_ok_iff : hashOf payload = .ok hash ↔ payloadHash payload = .ok hash := by
  unfold hashOf
  split <;> simp_all

omit [Hashlib] in
/-- Setting the dead letter of an event. -/
theorem lettersOf_setLetter (events : Table String OutboxEvent)
    (h : s.lettersOf eventId = [dlq]) (hid : dlq'.originalEventId = eventId) :
    State.lettersOf ⟨events, s.setLetter eventId dlq'⟩ eventId = [dlq'] ∧
      ∀ other, other ≠ eventId →
        State.lettersOf ⟨events, s.setLetter eventId dlq'⟩ other = s.lettersOf other := by
  have hsame : ∀ d : DeadLetterRow,
      (if d.originalEventId = eventId then dlq' else d).originalEventId = d.originalEventId := by
    intro d
    split <;> simp_all
  have hfilter : ∀ other, State.lettersOf ⟨events, s.setLetter eventId dlq'⟩ other =
      (s.lettersOf other).map fun d => if d.originalEventId = eventId then dlq' else d := by
    intro other
    simp only [State.lettersOf, State.setLetter, List.filter_map, Function.comp_def, hsame]
  have hmem : dlq ∈ s.lettersOf eventId := by simp [h]
  have hdlq : dlq.originalEventId = eventId := by simpa using (List.mem_filter.mp hmem).2
  refine ⟨by simp [hfilter, h, hdlq], fun other hother => ?_⟩
  rw [hfilter]
  refine (List.map_congr_left fun d hd => ?_).trans (List.map_id _)
  have hd' : d.originalEventId = other := by simpa using (List.mem_filter.mp hd).2
  rw [if_neg (hd' ▸ hother)]
  rfl

omit [Hashlib] in
/-- The views after a row and its dead letter have been set. -/
theorem view_set (row' : OutboxEvent) (dlq' : DeadLetterRow) (h : find s eventId = .ok (dlq, row))
    (hid : dlq'.originalEventId = dlq.originalEventId) :
    State.view ⟨s.events.insert eventId row', s.setLetter eventId dlq'⟩ eventId =
        ⟨some row', [dlq'], []⟩ ∧
      ∀ other, other ≠ eventId →
        State.view ⟨s.events.insert eventId row', s.setLetter eventId dlq'⟩ other =
          s.view other := by
  obtain ⟨hview, hdlq⟩ := find_eq_ok h
  obtain ⟨hself, hothers⟩ := lettersOf_setLetter (s.events.insert eventId row')
    (congrArg View.letters hview) (hid.trans hdlq)
  refine ⟨by rw [State.view, AList.lookup_insert, hself], fun other hother => ?_⟩
  rw [State.view, lookup_insert_ne hother, hothers other hother]
  rfl

omit [Hashlib] in
/-- The views after a dead letter has been set. -/
theorem view_setLetter (dlq' : DeadLetterRow) (h : find s eventId = .ok (dlq, row))
    (hid : dlq'.originalEventId = dlq.originalEventId) :
    State.view ⟨s.events, s.setLetter eventId dlq'⟩ eventId = ⟨some row, [dlq'], []⟩ ∧
      ∀ other, other ≠ eventId →
        State.view ⟨s.events, s.setLetter eventId dlq'⟩ other = s.view other := by
  obtain ⟨hview, hdlq⟩ := find_eq_ok h
  obtain ⟨hself, hothers⟩ := lettersOf_setLetter s.events (congrArg View.letters hview)
    (hid.trans hdlq)
  refine ⟨?_, fun other hother => ?_⟩
  · rw [State.view, hself]
    exact congrArg (fun row => View.mk row [dlq'] []) (congrArg View.row hview)
  · rw [State.view, hothers other hother]
    rfl

section Steps

variable {a : Answer} {v : View}

omit [Hashlib] in
/-- A call that raises and leaves the event alone. -/
theorem EventStep.refused [Hashlib] (h : a.result.isOk = false) :
    EventStep maxAttempts eventId k a v v :=
  .kept (fun hok => absurd hok (by simp [h])) (fun _ _ _ => h) (fun _ _ => h) fun _ => h

/-- A call about another event. -/
theorem EventStep.elsewhere (hattempts : a.attempts = [])
    (hinsert : ∀ topic payload, k.request ≠ .insert eventId topic payload)
    (hreplay : ∀ hash, k.request ≠ .scheduleReplay eventId hash)
    (hresolved : k.request ≠ .markResolved eventId) : EventStep maxAttempts eventId k a v v :=
  .kept (fun _ => by simp [hattempts, attemptsOf]) (fun _ _ h => absurd h (hinsert _ _))
    (fun _ h => absurd h (hreplay _)) fun h => absurd h hresolved

end Steps

theorem insert_step (maxAttempts : ℤ) (commits : Bool) (s : State) (id topic : String)
    (payload : Dict) (eventId : String) :
    EventStep maxAttempts eventId ⟨.insert id topic payload, commits⟩
      (answer s (insertEvent commits s id topic payload)).1 (s.view eventId)
      ((answer s (insertEvent commits s id topic payload)).2.view eventId) := by
  cases h : insertEvent commits s id topic payload with
  | error e => exact .refused rfl
  | ok s' =>
    simp only [insertEvent] at h
    split at h
    · cases h
    · rename_i hnew
      obtain ⟨-, rfl⟩ := commit_eq_ok_iff.mp h
      by_cases heq : eventId = id
      · subst heq
        have hnone : s.events.lookup eventId = none := AList.lookup_eq_none.mpr hnew
        have hview : s.view eventId = ⟨none, s.lettersOf eventId, []⟩ := by
          rw [State.view, hnone]
        have hview' : State.view ⟨s.events.insert eventId { topic := topic, payload := payload },
            s.deadLetters⟩ eventId =
            ⟨some { topic := topic, payload := payload }, s.lettersOf eventId, []⟩ := by
          rw [State.view, AList.lookup_insert]
          rfl
        rw [hview]
        simp only [answer]
        rw [hview']
        exact .inserted rfl rfl
      · have hview : State.view ⟨s.events.insert id { topic := topic, payload := payload },
            s.deadLetters⟩ eventId = s.view eventId := by
          rw [State.view, lookup_insert_ne heq]
          rfl
        simp only [answer]
        rw [hview]
        exact .elsewhere rfl (by simp [Ne.symm heq]) (by simp) (by simp)

theorem dispatchOnce_step (maxAttempts : ℤ) (commits : Bool) (s : State) (call : Dispatch)
    (eventId : String) :
    EventStep maxAttempts eventId ⟨.dispatchOnce call, commits⟩
      (dispatchOnce maxAttempts commits s call).1 (s.view eventId)
      ((dispatchOnce maxAttempts commits s call).2.view eventId) := by
  unfold dispatchOnce
  cases hloop : dispatchLoop maxAttempts call s with
  | error stopped => exact .refused rfl
  | ok batch =>
    cases commits with
    | false => exact .refused rfl
    | true =>
      obtain ⟨hopen, hclosed⟩ := dispatchLoop_view hloop eventId
      have hafter : (⟨(batch.view eventId).row, (batch.view eventId).letters, []⟩ : View) =
        batch.state.view eventId := rfl
      by_cases hid : eventId ∈ s.unpublished
      · obtain ⟨row, hrow, hpublished⟩ := mem_unpublished_iff.mp hid
        have hbefore : s.view eventId = ⟨some row, s.lettersOf eventId, []⟩ := by
          rw [State.view, hrow]
        have hstep := hopen hid
        obtain ⟨row', hrow'⟩ : ∃ row', (batch.view eventId).row = some row' := by
          rw [hbefore] at hstep
          generalize batch.view eventId = v at hstep
          cases hstep <;> exact ⟨_, rfl⟩
        simp only [commit, if_true]
        rw [← hafter, hbefore, hrow']
        refine .dispatched rfl rfl hpublished ?_
        rw [← hbefore, ← hrow']
        exact hstep
      · have hsame := hclosed hid
        simp only [commit, if_true]
        rw [← hafter, hsame]
        exact .kept (fun _ => congrArg View.attempts hsame) (by simp) (by simp) (by simp)

theorem migratePayload_step (maxAttempts : ℤ) (commits : Bool) (s : State) (id : String)
    (migration : Migration) (eventId : String) :
    EventStep maxAttempts eventId ⟨.migratePayload id migration, commits⟩
      (outbox maxAttempts s ⟨.migratePayload id migration, commits⟩).1 (s.view eventId)
      ((outbox maxAttempts s ⟨.migratePayload id migration, commits⟩).2.view eventId) := by
  simp only [outbox]
  cases h : migratePayload commits s id migration with
  | error e => exact .refused rfl
  | ok s' =>
    simp only [migratePayload, bind_eq_ok_iff, raiseIf_eq_ok_iff, commit_eq_ok_iff,
      hashOf_eq_ok_iff, not_not] at h
    obtain ⟨⟨dlq, row⟩, hfind, _, hstate, current, hcurrent, _, rfl, payload, hmigrator, hash,
      hhash, -, rfl⟩ := h
    obtain ⟨hself, hothers⟩ := view_set
      { row with payload := migration.column row.payload payload }
      { dlq with
        schemaVersion := migration.newSchemaVersion, payloadHash := hash,
        resolutionState := .MIGRATED } hfind rfl
    by_cases heq : eventId = id
    · subst heq
      dsimp only
      rw [hself, (find_eq_ok hfind).1]
      exact .migrated rfl rfl hstate hcurrent hmigrator hhash
    · dsimp only
      rw [hothers eventId heq]
      exact .elsewhere rfl (by simp) (by simp) (by simp)

theorem scheduleReplay_step (maxAttempts : ℤ) (commits : Bool) (s : State) (id expected : String)
    (eventId : String) :
    EventStep maxAttempts eventId ⟨.scheduleReplay id expected, commits⟩
      (answer s (scheduleReplay commits s id expected)).1 (s.view eventId)
      ((answer s (scheduleReplay commits s id expected)).2.view eventId) := by
  cases h : scheduleReplay commits s id expected with
  | error e => exact .refused rfl
  | ok s' =>
    simp only [scheduleReplay, bind_eq_ok_iff, raiseIf_eq_ok_iff, commit_eq_ok_iff,
      hashOf_eq_ok_iff, not_or, not_not] at h
    obtain ⟨⟨dlq, row⟩, hfind, current, hcurrent, _, ⟨rfl, hdlq⟩, _, hstate, -, rfl⟩ := h
    obtain ⟨hself, hothers⟩ := view_set
      { row with publishedAt := none, attempts := 0, nextAttemptAt := none, lastError := none }
      { dlq with resolutionState := .REPLAY_PENDING } hfind rfl
    simp only [answer]
    by_cases heq : eventId = id
    · subst heq
      rw [hself, (find_eq_ok hfind).1]
      exact .scheduled rfl rfl hcurrent hdlq hstate
    · rw [hothers eventId heq]
      exact .elsewhere rfl (by simp) (by simp [Ne.symm heq]) (by simp)

theorem markResolved_step (maxAttempts : ℤ) (commits : Bool) (s : State) (id : String)
    (eventId : String) :
    EventStep maxAttempts eventId ⟨.markResolved id, commits⟩
      (answer s (markResolved commits s id)).1 (s.view eventId)
      ((answer s (markResolved commits s id)).2.view eventId) := by
  cases h : markResolved commits s id with
  | error e => exact .refused rfl
  | ok s' =>
    simp only [markResolved, bind_eq_ok_iff, raiseIf_eq_ok_iff, commit_eq_ok_iff, not_or,
      not_not] at h
    obtain ⟨⟨dlq, row⟩, hfind, _, ⟨hstate, hpublished⟩, -, rfl⟩ := h
    obtain ⟨hself, hothers⟩ := view_setLetter { dlq with resolutionState := .RESOLVED } hfind rfl
    simp only [answer]
    by_cases heq : eventId = id
    · subst heq
      rw [hself, (find_eq_ok hfind).1]
      exact .resolved rfl rfl hstate hpublished
    · rw [hothers eventId heq]
      exact .elsewhere rfl (by simp) (by simp) (by simp [Ne.symm heq])

/-- **What a call does to an event.** -/
theorem outbox_step (maxAttempts : ℤ) (s : State) (k : Call) (eventId : String) :
    EventStep maxAttempts eventId k (outbox maxAttempts s k).1 (s.view eventId)
      ((outbox maxAttempts s k).2.view eventId) := by
  obtain ⟨request, commits⟩ := k
  cases request with
  | insert id topic payload => exact insert_step maxAttempts commits s id topic payload eventId
  | dispatchOnce call => exact dispatchOnce_step maxAttempts commits s call eventId
  | inspect id => exact .elsewhere rfl (by simp) (by simp) (by simp)
  | migratePayload id migration =>
    exact migratePayload_step maxAttempts commits s id migration eventId
  | scheduleReplay id expected =>
    exact scheduleReplay_step maxAttempts commits s id expected eventId
  | markResolved id => exact markResolved_step maxAttempts commits s id eventId

end Hashes

end Kripto.Database
