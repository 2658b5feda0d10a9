/-
# The outbox keeps its accounts

A scheduling period of an event goes from its writing, or from `schedule_replay`, to the next
`schedule_replay`.  In a period the publisher is called at most `max_attempts` times and takes
the event at most once; the event is published when the publisher has taken it or has failed
`max_attempts` times, and then it has its one dead letter, whose hash is that of the payload.

This needs that every dispatch gets to its commit.  The handler of a failure can itself raise:
it hashes the payload, and a payload with a lone surrogate has no hash.  Then what the publisher
has taken in this batch is not marked, and the next dispatch publishes it again
(`delivered_twice`).  It also needs that a migrated payload keeps its hash when it is written to
the column.  `outbox_accounting` is about the runs in which both hold.
-/
import Kripto.Database.Resolution

namespace Kripto.Database

open Effect Python

section Hashes

variable [Hashlib]

/-! ## 1. Accounts -/

/-- The call writes the event or schedules it again. -/
def Scheduled (eventId : String) (entry : Call × Answer) : Prop :=
  entry.2.result.isOk = true ∧ ((∃ topic payload, entry.1.request = .insert eventId topic payload) ∨
    ∃ hash, entry.1.request = .scheduleReplay eventId hash)

/-- The current scheduling period of an event. -/
def Period (eventId : String) (past during : List (Call × Answer)) : Prop :=
  Since (Scheduled eventId) (Scheduled eventId) past during

/-- The calls of the publisher for an event. -/
def publisherCalls (eventId : String) (during : List (Call × Answer)) : List Attempt :=
  during.flatMap fun e => attemptsOf e.2.attempts eventId

def successes (attempts : List Attempt) : ℕ := attempts.countP fun attempt => attempt.delivered

/-- The accounts of an event. -/
structure Accounted (maxAttempts : ℤ) (l : Log State Call Answer) (eventId : String) : Prop where
  /-- In every period, over or not. -/
  attempts : ∀ past during later, l.past = past ++ later → Period eventId past during →
    ((publisherCalls eventId during).length : ℤ) ≤ maxAttempts ∧
      successes (publisherCalls eventId during) ≤ 1
  published : ∀ row, l.now.events.lookup eventId = some row → row.publishedAt ≠ none →
    ∃ during, Period eventId l.past during ∧
      (successes (publisherCalls eventId during) = 1 ∨
        successes (publisherCalls eventId during) = 0 ∧
          ((publisherCalls eventId during).length : ℤ) = maxAttempts ∧
          l.now.lettersOf eventId ≠ [])
  single : (l.now.lettersOf eventId).length ≤ 1
  hash : ∀ dlq ∈ l.now.lettersOf eventId, ∃ row, l.now.events.lookup eventId = some row ∧
    payloadHash row.payload = .ok dlq.payloadHash

/-! ## 2. Calls that are carried through -/

/-- The dispatcher gets past this row: if the row is due, the publisher is not interrupted, and a
dead letter that has to be written has its hash. -/
def Passes (maxAttempts : ℤ) (call : Dispatch) (eventId : String) (row : OutboxEvent)
    (letters : List DeadLetterRow) : Prop :=
  row.nextAttemptAt.any (call.now < ·) = false → call.publisher eventId ≠ .interrupted ∧
    ∀ msg, call.publisher eventId = .failed msg → maxAttempts ≤ (row.attempts : ℤ) + 1 →
      letters = [] → ∃ hash, payloadHash row.payload = .ok hash

/-- The column keeps the hash of a migrated payload. -/
def KeepsHash (migration : Migration) (row : OutboxEvent) : Prop :=
  ∀ payload hash, migration.migrator row.payload = .ok payload → payloadHash payload = .ok hash →
    payloadHash (migration.column row.payload payload) = .ok hash

/-- The call is carried through, as far as this event goes. -/
structure CarriedFor (maxAttempts : ℤ) (eventId : String) (v : View) (k : Call) : Prop where
  dispatch : ∀ call row, k.request = .dispatchOnce call → v.row = some row →
    row.publishedAt = none → Passes maxAttempts call eventId row v.letters
  migrate : ∀ migration row dlq, k.request = .migratePayload eventId migration →
    v = ⟨some row, [dlq], []⟩ → dlq.resolutionState ∈ [.OPEN, .MIGRATED] →
    payloadHash row.payload = .ok migration.expectedHash → KeepsHash migration row

/-- A dispatch gets to its commit, and a migration keeps its hash. -/
def Carried (maxAttempts : ℤ) (l : Log State Call Answer) (k : Call) : Prop :=
  ∀ eventId, CarriedFor maxAttempts eventId (l.now.view eventId) k

variable {maxAttempts : ℤ} {call : Dispatch} {batch : Batch} {eventId : String} {s : State}
  {row row' : OutboxEvent} {letters letters' : List DeadLetterRow} {k : Call} {a : Answer}
  {v v' : View} {past during : List (Call × Answer)} {attempts : List Attempt}

theorem dispatchRow_returns (hrow : batch.state.events.lookup eventId = some row)
    (h : Passes maxAttempts call eventId row (batch.state.lettersOf eventId)) :
    ∃ batch', dispatchRow maxAttempts call batch eventId = .ok batch' := by
  simp only [dispatchRow, hrow]
  split
  · exact ⟨_, rfl⟩
  · rename_i hdue
    obtain ⟨hrunning, hhash⟩ := h (Bool.eq_false_iff.mpr hdue)
    split
    · exact ⟨_, rfl⟩
    · rename_i msg hfailed
      split
      · rename_i hlast
        have hgiveUp : ∃ s', giveUp call.now eventId
            { row with attempts := row.attempts + 1, lastError := some msg } msg batch.state =
              .ok s' := by
          simp only [giveUp]
          split
          · rename_i hempty
            obtain ⟨hash, hhash⟩ := hhash msg hfailed (by simpa using hlast)
              (List.isEmpty_iff.mp hempty)
            exact ⟨_, by rw [hhash]; rfl⟩
          · exact ⟨_, rfl⟩
        obtain ⟨s', hs'⟩ := hgiveUp
        simp only [hs']
        exact ⟨_, rfl⟩
      · exact ⟨_, rfl⟩
    · rename_i hinterrupted
      exact absurd hinterrupted hrunning

/-- **A dispatch gets to its commit** if it gets past every unpublished row. -/
theorem dispatchLoop_returns (h : ∀ eventId row, s.events.lookup eventId = some row →
      row.publishedAt = none → Passes maxAttempts call eventId row (s.lettersOf eventId)) :
    ∃ batch, dispatchLoop maxAttempts call s = .ok batch := by
  have hperm := call.rows.perm s.unpublished
  have hnodup : (call.rows.order s.unpublished).Nodup :=
    hperm.nodup_iff.mpr ((AList.keys_nodup _).filter _)
  -- what the loop has not come to is as it was
  have hloop : ∃ batch, dispatchLoop maxAttempts call s = .ok batch ∧
      ∀ id, id ∉ call.rows.order s.unpublished → batch.view id = s.view id := by
    refine foldlM_returns
      (I := fun ids (batch : Batch) => ∀ id, id ∉ ids → batch.view id = s.view id)
      (fun _ _ => rfl) ?_
    rintro ids id batch ⟨rest, hrest⟩ hsame
    have hfresh : id ∉ ids := by
      rw [← hrest, List.append_assoc] at hnodup
      have hdisjoint := (List.nodup_append.mp hnodup).2.2
      exact fun hid => hdisjoint id hid id (by simp) rfl
    have hmem : id ∈ s.unpublished := hperm.mem_iff.mp (by simp [← hrest])
    obtain ⟨row, hrow, hopen⟩ := mem_unpublished_iff.mp hmem
    have hview := hsame id hfresh
    have hrow' : batch.state.events.lookup id = some row := (congrArg View.row hview).trans hrow
    have hletters : batch.state.lettersOf id = s.lettersOf id := congrArg View.letters hview
    obtain ⟨batch', hbatch'⟩ := dispatchRow_returns hrow' (hletters ▸ h id row hrow hopen)
    refine ⟨batch', hbatch', fun other hother => ?_⟩
    rw [List.mem_append, List.mem_singleton, not_or] at hother
    rw [(dispatchRow_view hbatch' hrow').2 other hother.2]
    exact hsame other hother.1
  obtain ⟨batch, hbatch, -⟩ := hloop
  exact ⟨batch, hbatch⟩

/-- **Every call of the publisher is accounted for**: a call that is carried through and commits
raises only if it has not called the publisher. -/
theorem attempts_of_refused (hcommits : k.commits = true)
    (h : ∀ eventId, CarriedFor maxAttempts eventId (s.view eventId) k)
    (hresult : (outbox maxAttempts s k).1.result.isOk = false) :
    (outbox maxAttempts s k).1.attempts = [] := by
  obtain ⟨request, commits⟩ := k
  obtain rfl : commits = true := hcommits
  have hanswer : ∀ x, (answer s x).1.attempts = [] := by
    intro x
    cases x <;> rfl
  cases request with
  | insert id topic payload => exact hanswer _
  | dispatchOnce call =>
    obtain ⟨batch, hbatch⟩ := dispatchLoop_returns fun eventId row hrow hopen =>
      (h eventId).dispatch call row rfl hrow hopen
    simp only [outbox, dispatchOnce, hbatch, commit, if_true] at hresult
    cases hresult
  | inspect id => rfl
  | migratePayload id migration =>
    simp only [outbox]
    split <;> rfl
  | scheduleReplay id expected => exact hanswer _
  | markResolved id => exact hanswer _

/-! ## 3. The invariant -/

/-- What the row of an event says of the calls in its period. -/
inductive Tally (maxAttempts : ℤ) (row : OutboxEvent) (letters : List DeadLetterRow)
    (attempts : List Attempt) : Prop
  | waiting (hopen : row.publishedAt = none) (hcount : row.attempts = attempts.length)
      (hnone : successes attempts = 0) (hleft : (attempts.length : ℤ) < maxAttempts)
  | delivered (hclosed : row.publishedAt ≠ none) (hone : successes attempts = 1)
      (hbound : (attempts.length : ℤ) ≤ maxAttempts)
  | givenUp (hclosed : row.publishedAt ≠ none) (hnone : successes attempts = 0)
      (hall : (attempts.length : ℤ) = maxAttempts) (hletters : letters ≠ [])

/-- What a run keeps of an event. -/
structure Counted (maxAttempts : ℤ) (eventId : String) (past : List (Call × Answer)) (v : View) :
    Prop where
  unwritten : v.row = none → v.letters = [] ∧ ∀ e ∈ past, ¬ Scheduled eventId e
  period : ∀ row, v.row = some row → ∃ during, Period eventId past during ∧
    Tally maxAttempts row v.letters (publisherCalls eventId during)
  single : v.letters.length ≤ 1
  hash : ∀ row dlq, v.row = some row → dlq ∈ v.letters →
    payloadHash row.payload = .ok dlq.payloadHash

omit [Hashlib] in
theorem Tally.bounds (h : Tally maxAttempts row letters attempts) :
    (attempts.length : ℤ) ≤ maxAttempts ∧ successes attempts ≤ 1 := by
  cases h with
  | waiting hopen hcount hnone hleft => omega
  | delivered hclosed hone hbound => omega
  | givenUp hclosed hnone hall hletters => omega

omit [Hashlib] in
/-- The tally goes by the attempts and the mark of the row. -/
theorem Tally.congr (h : Tally maxAttempts row letters attempts)
    (hattempts : row'.attempts = row.attempts) (hpublished : row'.publishedAt = row.publishedAt)
    (hletters : letters ≠ [] → letters' ≠ []) : Tally maxAttempts row' letters' attempts := by
  cases h with
  | waiting hopen hcount hnone hleft =>
    exact .waiting (hpublished.trans hopen) (hattempts.trans hcount) hnone hleft
  | delivered hclosed hone hbound => exact .delivered (hpublished ▸ hclosed) hone hbound
  | givenUp hclosed hnone hall hsome =>
    exact .givenUp (hpublished ▸ hclosed) hnone hall (hletters hsome)

omit [Hashlib] in
theorem publisherCalls_append (e : Call × Answer) :
    publisherCalls eventId (during ++ [e]) =
      publisherCalls eventId during ++ attemptsOf e.2.attempts eventId := by
  simp [publisherCalls]

omit [Hashlib] in
theorem successes_append (tried : List Attempt) :
    successes (attempts ++ tried) = successes attempts + successes tried :=
  List.countP_append

omit [Hashlib] in
theorem not_scheduled_of_request
    (hinsert : ∀ topic payload, k.request ≠ .insert eventId topic payload)
    (hreplay : ∀ hash, k.request ≠ .scheduleReplay eventId hash) :
    ¬ Scheduled eventId (k, a) := by
  rintro ⟨-, ⟨topic, payload, hk⟩ | ⟨hash, hk⟩⟩
  · exact hinsert topic payload hk
  · exact hreplay hash hk

/-- **A turn of the dispatcher** keeps the tally. -/
theorem Tally.dispatched {tried : List Attempt}
    (h : Tally maxAttempts row letters attempts) (hopen : row.publishedAt = none)
    (hstep : RowStep maxAttempts call eventId ⟨some row, letters, []⟩
      ⟨some row', letters', tried⟩) :
    Tally maxAttempts row' letters' (attempts ++ tried) := by
  obtain ⟨-, hcount, hnone, hleft⟩ | ⟨hclosed, -, -⟩ | ⟨hclosed, -, -, -⟩ := h
  · cases hstep with
    | waits hwaits =>
      rw [List.append_nil]
      exact .waiting hopen hcount hnone hleft
    | delivered hdue hdelivered =>
      refine .delivered (by simp) ?_ ?_
      · rw [successes_append, hnone]
        rfl
      · rw [List.length_append]
        simpa [Int.add_one_le_iff] using hleft
    | retries hdue hfailed hmore next =>
      refine .waiting hopen ?_ ?_ ?_
      · simp [hcount]
      · rw [successes_append, hnone]
        rfl
      · simpa [hcount] using hmore
    | givesUp hdue hfailed hlast hletters =>
      refine .givenUp (by simp) ?_ ?_ ?_
      · rw [successes_append, hnone]
        rfl
      · simp
        omega
      · rcases hletters with ⟨hsome, rfl⟩ | ⟨-, hash, -, rfl⟩
        · exact hsome
        · simp
  · exact absurd hopen hclosed
  · exact absurd hopen hclosed

/-- The event is as it was, and the call has neither scheduled it nor called the publisher. -/
theorem Counted.same (h : Counted maxAttempts eventId past v) (hk : ¬ Scheduled eventId (k, a))
    (hattempts : attemptsOf a.attempts eventId = []) :
    Counted maxAttempts eventId (past ++ [(k, a)]) v := by
  refine ⟨fun hnone => ⟨(h.unwritten hnone).1, fun e he => ?_⟩, fun row hrow => ?_, h.single,
    h.hash⟩
  · rcases List.mem_append.mp he with he | he
    · exact (h.unwritten hnone).2 e he
    · obtain rfl := List.mem_singleton.mp he
      exact hk
  obtain ⟨during, hperiod, htally⟩ := h.period row hrow
  refine ⟨_, hperiod.append hk, ?_⟩
  rwa [publisherCalls_append, hattempts, List.append_nil]

/-- A new period begins. -/
theorem Counted.start (hmax : 1 ≤ maxAttempts) (hk : Scheduled eventId (k, a))
    (hopen : row.publishedAt = none) (hzero : row.attempts = 0) (hsingle : letters.length ≤ 1)
    (hhash : ∀ dlq ∈ letters, payloadHash row.payload = .ok dlq.payloadHash) :
    Counted maxAttempts eventId (past ++ [(k, a)]) ⟨some row, letters, []⟩ := by
  refine ⟨fun hnone => by simp at hnone, ?_, hsingle, ?_⟩
  · rintro row' ⟨⟩
    exact ⟨[], .start hk, .waiting hopen hzero rfl (Int.lt_of_lt_of_le Int.zero_lt_one hmax)⟩
  · rintro row' dlq ⟨⟩ hdlq
    exact hhash dlq hdlq

/-- The row and its dead letter change, and the tally stays. -/
theorem Counted.changed {dlq dlq' : DeadLetterRow}
    (h : Counted maxAttempts eventId past ⟨some row, [dlq], []⟩)
    (hk : ¬ Scheduled eventId (k, a)) (hattempts : a.attempts = [])
    (hcount : row'.attempts = row.attempts) (hpublished : row'.publishedAt = row.publishedAt)
    (hhash : payloadHash row'.payload = .ok dlq'.payloadHash) :
    Counted maxAttempts eventId (past ++ [(k, a)]) ⟨some row', [dlq'], []⟩ := by
  have hsame := h.same hk (by simp [hattempts, attemptsOf])
  refine ⟨fun hnone => by simp at hnone, ?_, by simp, ?_⟩
  · rintro row₂ ⟨⟩
    obtain ⟨during, hperiod, htally⟩ := hsame.period row rfl
    exact ⟨during, hperiod, htally.congr hcount hpublished (by simp)⟩
  · rintro row₂ dlq₂ ⟨⟩ hdlq
    obtain rfl := List.mem_singleton.mp hdlq
    exact hhash

/-- A turn of the dispatcher keeps the counts. -/
theorem Counted.dispatched (h : Counted maxAttempts eventId past ⟨some row, letters, []⟩)
    (hk : k.request = .dispatchOnce call) (hopen : row.publishedAt = none)
    (hstep : RowStep maxAttempts call eventId ⟨some row, letters, []⟩
      ⟨some row', letters', attemptsOf a.attempts eventId⟩) :
    Counted maxAttempts eventId (past ++ [(k, a)]) ⟨some row', letters', []⟩ := by
  have hno : ¬ Scheduled eventId (k, a) :=
    not_scheduled_of_request (by simp [hk]) (by simp [hk])
  obtain ⟨during, hperiod, htally⟩ := h.period row rfl
  have hletters : letters' = letters ∧ row'.payload = row.payload ∨ ∃ dlq, letters' = [dlq] ∧
      payloadHash row'.payload = .ok dlq.payloadHash := by
    generalize attemptsOf a.attempts eventId = tried at hstep
    cases hstep with
    | waits hwaits => exact .inl ⟨rfl, rfl⟩
    | delivered hdue hdelivered => exact .inl ⟨rfl, rfl⟩
    | retries hdue hfailed hleft next => exact .inl ⟨rfl, rfl⟩
    | givesUp hdue hfailed hlast hletters =>
      rcases hletters with ⟨-, rfl⟩ | ⟨-, hash, hhash, rfl⟩
      · exact .inl ⟨rfl, rfl⟩
      · exact .inr ⟨_, rfl, hhash⟩
  refine ⟨fun hnone => by simp at hnone, ?_, ?_, ?_⟩
  · rintro row₂ ⟨⟩
    refine ⟨_, hperiod.append hno, ?_⟩
    rw [publisherCalls_append]
    exact htally.dispatched hopen hstep
  · rcases hletters with ⟨rfl, -⟩ | ⟨dlq, rfl, -⟩
    · exact h.single
    · simp
  · rintro row₂ dlq ⟨⟩ hdlq
    rcases hletters with ⟨rfl, hpayload⟩ | ⟨dlq', rfl, hhash⟩
    · rw [hpayload]
      exact h.hash row dlq rfl hdlq
    · obtain rfl := List.mem_singleton.mp hdlq
      exact hhash

/-- **A step of the event** keeps its counts. -/
theorem Counted.step (hmax : 1 ≤ maxAttempts) (h : Counted maxAttempts eventId past v)
    (hcarried : CarriedFor maxAttempts eventId v k)
    (hrefused : a.result.isOk = false → a.attempts = [])
    (hstep : EventStep maxAttempts eventId k a v v') :
    Counted maxAttempts eventId (past ++ [(k, a)]) v' := by
  cases hstep with
  | kept hattempts hinsert hreplay hresolved =>
    refine h.same ?_ ?_
    · rintro ⟨hok, ⟨topic, payload, hk⟩ | ⟨hash, hk⟩⟩
      · simp [hinsert topic payload hk] at hok
      · simp [hreplay hash hk] at hok
    · cases hok : a.result.isOk with
      | true => exact hattempts hok
      | false => simp [hrefused hok, attemptsOf]
  | @inserted letters topic payload hk ha =>
    obtain rfl : letters = [] := (h.unwritten rfl).1
    exact .start hmax ⟨by rw [ha]; rfl, .inl ⟨topic, payload, hk⟩⟩ rfl rfl (by simp) (by simp)
  | dispatched hk ha hopen hstep => exact h.dispatched hk hopen hstep
  | migrated hk ha hstate hcurrent hmigrator hhash =>
    refine h.changed (not_scheduled_of_request (by simp [hk]) (by simp [hk])) ha rfl rfl ?_
    exact hcarried.migrate _ _ _ hk rfl hstate hcurrent _ _ hmigrator hhash
  | @scheduled row dlq hash hk ha hhash hdlq hstate =>
    refine .start hmax ⟨by rw [ha]; rfl, .inr ⟨hash, hk⟩⟩ rfl rfl (by simp) fun dlq' hdlq' => ?_
    obtain rfl := List.mem_singleton.mp hdlq'
    exact hdlq ▸ hhash
  | @resolved row dlq hk ha hstate hpublished =>
    refine h.changed (not_scheduled_of_request (by simp [hk]) (by simp [hk])) (by simp [ha]) rfl
      rfl ?_
    exact h.hash row dlq rfl (by simp)

/-! ## 4. Runs -/

theorem counted_of_run (hmax : 1 ≤ maxAttempts) {ks : List Call}
    (hcommits : ∀ k ∈ ks, k.commits = true)
    (h : Log.Meeting (outbox maxAttempts) (Carried maxAttempts) (Log.start .empty) ks)
    (eventId : String) :
    Counted maxAttempts eventId ((Log.start .empty).calls (outbox maxAttempts) ks).past
      (((Log.start .empty).calls (outbox maxAttempts) ks).now.view eventId) := by
  refine Log.keeps (I := fun l => Counted maxAttempts eventId l.past (l.now.view eventId))
    (C := fun l k => Carried maxAttempts l k ∧ k.commits = true) ?_ ?_ ?_
  · intro l k hl hk
    exact hl.step hmax (hk.1 eventId) (attempts_of_refused hk.2 hk.1)
      (outbox_step maxAttempts l.now k eventId)
  · have hnone : State.empty.view eventId = ⟨none, [], []⟩ := rfl
    rw [Log.start_now, hnone]
    exact ⟨fun _ => ⟨rfl, fun e he => by simp at he⟩, fun _ hrow => by simp at hrow, by simp,
      fun _ _ hrow => by simp at hrow⟩
  · exact Log.meeting_and h hcommits

/-- **The accounts of the outbox.**  After any run whose dispatches get to their commits and whose
migrations keep their hashes, the accounts of every event are in order. -/
theorem outbox_accounting (maxAttempts : ℤ) (hmax : 1 ≤ maxAttempts) (ks : List Call)
    (hcommits : ∀ k ∈ ks, k.commits = true)
    (h : Log.Meeting (outbox maxAttempts) (Carried maxAttempts) (Log.start .empty) ks)
    (eventId : String) :
    Accounted maxAttempts ((Log.start .empty).calls (outbox maxAttempts) ks) eventId := by
  have hcounted := counted_of_run hmax hcommits h eventId
  refine ⟨?_, ?_, hcounted.single, ?_⟩
  · intro past during later hpast hperiod
    obtain ⟨ks₁, ks₂, rfl, rfl⟩ := Log.past_eq_append hpast
    have hbefore := counted_of_run hmax (fun k hk => hcommits k (List.mem_append_left _ hk))
      (Log.meeting_append.mp h).1 eventId
    cases hrow : (((Log.start .empty).calls (outbox maxAttempts) ks₁).now.view eventId).row with
    | none =>
      obtain ⟨e, he, hscheduled⟩ := hperiod.mem
      exact absurd hscheduled ((hbefore.unwritten hrow).2 e he)
    | some row =>
      obtain ⟨during', hperiod', htally⟩ := hbefore.period row hrow
      obtain rfl := hperiod.unique hperiod'
      exact htally.bounds
  · intro row hrow hpublished
    obtain ⟨during, hperiod, htally⟩ := hcounted.period row hrow
    refine ⟨during, hperiod, ?_⟩
    cases htally with
    | waiting hopen => exact absurd hopen hpublished
    | delivered _ hone _ => exact .inl hone
    | givenUp _ hnone hall hletters => exact .inr ⟨hnone, hall, hletters⟩
  · intro dlq hdlq
    cases hrow : ((Log.start .empty).calls (outbox maxAttempts) ks).now.events.lookup eventId with
    | none =>
      have hnone : State.lettersOf _ eventId = [] := (hcounted.unwritten hrow).1
      simp [hnone] at hdlq
    | some row => exact ⟨row, rfl, hcounted.hash row dlq hrow hdlq⟩

end Hashes

/-! ## 5. A payload without a hash -/

attribute [local instance] plainHashlib

theorem replayed_carried :
    Log.Meeting (outbox 1) (Carried 1) (Log.start .empty) (replayed .delivered) := by
  refine ⟨fun eventId => ⟨?_, ?_⟩, fun eventId => ⟨?_, ?_⟩, fun eventId => ⟨?_, ?_⟩,
    fun eventId => ⟨?_, ?_⟩, trivial⟩
  · rintro call row ⟨⟩
  · rintro migration row dlq ⟨⟩
  · rintro call row ⟨⟩ hrow hopen
    refine fun hdue => ⟨by simp, fun msg _ _ _ => ?_⟩
    by_cases hid : eventId = "1"
    · subst hid
      cases hrow
      exact ⟨"\x7b\x7d", by decide⟩
    · have hnone := (lookup_insert_ne (s := .empty) hid).symm.trans hrow
      cases hnone
  · rintro migration row dlq ⟨⟩
  · rintro call row ⟨⟩
  · rintro migration row dlq ⟨⟩
  · rintro call row ⟨⟩ hrow hopen
    exact fun hdue => ⟨by simp, fun msg hfailed => by simp at hfailed⟩
  · rintro migration row dlq ⟨⟩

theorem outbox_accounting_replayed :
    Accounted 1 ((Log.start .empty).calls (outbox 1) (replayed .delivered)) "1" :=
  outbox_accounting 1 (by decide) (replayed .delivered) (by decide) replayed_carried "1"

/-- A payload that cannot be encoded. -/
def poisonPayload : Dict := [(.str (Text.of "note"), .str [.surrogate 0])]

/-- A dispatch in which the publisher takes the first event and fails for the others. -/
def dispatchFirst (now : ℤ) : Call :=
  ⟨.dispatchOnce ⟨now, asStored, fun eventId => if eventId = "1" then .delivered
    else .failed "poison", fun _ => 0⟩, true⟩

/-- Two events are written, and dispatched twice. -/
def poisonedBatch : List Call :=
  [⟨.insert "2" "ORDER_EVENT" poisonPayload, true⟩, ⟨.insert "1" "ORDER_EVENT" [], true⟩,
    dispatchFirst 1, dispatchFirst 2]

/-- **An event is delivered twice** in its period: the handler of the other event's failure raises
both times, and the first dispatch is rolled back. -/
theorem delivered_twice :
    (∀ k ∈ poisonedBatch, k.commits = true) ∧
      ¬ Accounted 1 ((Log.start .empty).calls (outbox 1) poisonedBatch) "1" := by
  refine ⟨by decide, fun h => ?_⟩
  have hperiod : Period "1" ((Log.start .empty).calls (outbox 1) poisonedBatch).past
      (((Log.start .empty).calls (outbox 1) poisonedBatch).past.drop 2) := by
    refine ⟨[(⟨.insert "2" "ORDER_EVENT" poisonPayload, true⟩, ⟨.ok .done, []⟩)],
      (⟨.insert "1" "ORDER_EVENT" [], true⟩, ⟨.ok .done, []⟩), rfl, ⟨rfl, .inl ⟨_, _, rfl⟩⟩,
      fun e he => ?_⟩
    rcases List.mem_pair.mp he with rfl | rfl <;>
      exact not_scheduled_of_request (by simp [dispatchFirst]) (by simp [dispatchFirst])
  have htwice : successes (publisherCalls "1"
      (((Log.start .empty).calls (outbox 1) poisonedBatch).past.drop 2)) = 2 := by
    decide
  have honce := (h.attempts _ _ [] (List.append_nil _).symm hperiod).2
  omega

end Kripto.Database
