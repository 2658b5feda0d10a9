/-
# Dead letters are resolved by delivery

`mark_resolved` asks for a `published_at`, which the dispatcher sets when the publisher has taken
the event and also when it gives up.  So an event that is replayed and given up again can be
marked as resolved (`undelivered_resolved`).

`resolved_delivered`: along every run in which the dispatcher does not give up on an event that
waits for its replay, a dead letter is resolved only if the publisher has taken the event since it
was last scheduled, with a payload of the hash that the operator approved.
-/
import Kripto.Database.DlqOperator

namespace Kripto.Database

open Effect Python

section Hashes

variable [Hashlib]

/-! ## 1. What the log says of an event -/

/-- The operator has scheduled the event with this hash. -/
def Replayed (eventId hash : String) (entry : Call × Answer) : Prop :=
  entry.1.request = .scheduleReplay eventId hash ∧ entry.2.result.isOk = true

/-- The publisher has taken the event, with a payload of this hash. -/
def Delivered (eventId hash : String) (entry : Call × Answer) : Prop :=
  ∃ attempt ∈ entry.2.attempts, attempt.eventId = eventId ∧ attempt.delivered = true ∧
    payloadHash attempt.payload = .ok hash

/-- The event was last scheduled with this hash, and `after` is what has happened since. -/
def LastReplay (past : List (Call × Answer)) (eventId hash : String)
    (after : List (Call × Answer)) : Prop :=
  Since (Replayed eventId hash) (fun e => ∃ hash', Replayed eventId hash' e) past after

/-- Since it was last scheduled, the event has been delivered with the payload approved then. -/
def DeliveredSinceReplay (past : List (Call × Answer)) (eventId : String) : Prop :=
  ∃ hash after, LastReplay past eventId hash after ∧ ∃ e ∈ after, Delivered eventId hash e

/-- The call does not give up on this event while it waits for its replay: if the event is due
and the publisher fails for it, there are attempts left. -/
def NotGivenUp (maxAttempts : ℤ) (eventId : String) (v : View) (k : Call) : Prop :=
  ∀ call row dlq msg, k.request = .dispatchOnce call → v = ⟨some row, [dlq], []⟩ →
    dlq.resolutionState = .REPLAY_PENDING → row.publishedAt = none →
    row.nextAttemptAt.any (call.now < ·) = false → call.publisher eventId = .failed msg →
    (row.attempts : ℤ) + 1 < maxAttempts

/-- The call does not give up on an event that waits for its replay. -/
def KeepsReplaying (maxAttempts : ℤ) (l : Log State Call Answer) (k : Call) : Prop :=
  ∀ eventId, NotGivenUp maxAttempts eventId (l.now.view eventId) k

/-! ## 2. The invariant -/

/-- What a run keeps of an event. -/
structure Tracked (eventId : String) (past : List (Call × Answer)) (v : View) : Prop where
  letters : v.row = none → v.letters = []
  pending : ∀ row dlq, v = ⟨some row, [dlq], []⟩ → dlq.resolutionState = .REPLAY_PENDING →
    ∃ hash after, LastReplay past eventId hash after ∧ payloadHash row.payload = .ok hash ∧
      (row.publishedAt ≠ none → ∃ e ∈ after, Delivered eventId hash e)

variable {maxAttempts : ℤ} {eventId hash : String} {past after : List (Call × Answer)}
  {entry : Call × Answer} {k : Call} {a : Answer} {v v' : View}

omit [Hashlib] in
theorem not_replayed_of_request (h : ∀ hash, k.request ≠ .scheduleReplay eventId hash) :
    ¬ ∃ hash, Replayed eventId hash (k, a) :=
  fun ⟨hash, hreplayed⟩ => h hash hreplayed.1

/-- The event is as it was, and the call is no replay of it. -/
theorem Tracked.same (h : Tracked eventId past v) (hk : ¬ ∃ hash, Replayed eventId hash (k, a)) :
    Tracked eventId (past ++ [(k, a)]) v := by
  refine ⟨h.letters, fun row dlq hv hpending => ?_⟩
  obtain ⟨hash, after, hlast, hhash, hdelivered⟩ := h.pending row dlq hv hpending
  refine ⟨hash, _, hlast.append hk, hhash, fun hpublished => ?_⟩
  obtain ⟨e, he, hdelivered⟩ := hdelivered hpublished
  exact ⟨e, List.mem_append_left _ he, hdelivered⟩

/-- **A turn of the dispatcher** keeps the event tracked, unless it gives up on its replay. -/
theorem Tracked.dispatched {call : Dispatch} {row row' : OutboxEvent}
    {letters letters' : List DeadLetterRow} (h : Tracked eventId past ⟨some row, letters, []⟩)
    (hkeeps : NotGivenUp maxAttempts eventId ⟨some row, letters, []⟩ k)
    (hk : k.request = .dispatchOnce call) (hopen : row.publishedAt = none)
    (hstep : RowStep maxAttempts call eventId ⟨some row, letters, []⟩
      ⟨some row', letters', attemptsOf a.attempts eventId⟩) :
    Tracked eventId (past ++ [(k, a)]) ⟨some row', letters', []⟩ := by
  have hno : ¬ ∃ hash, Replayed eventId hash (k, a) :=
    not_replayed_of_request (by simp [hk])
  have hsame := h.same hno
  refine ⟨fun hnone => by simp at hnone, fun row₂ dlq hv hpending => ?_⟩
  simp only [View.mk.injEq, Option.some.injEq, and_true] at hv
  obtain ⟨rfl, rfl⟩ := hv
  generalize htried : attemptsOf a.attempts eventId = attempts at hstep
  cases hstep with
  | waits hwaits => exact hsame.pending _ _ rfl hpending
  | delivered hdue hdelivered =>
    obtain ⟨hash, after, hlast, hhash, -⟩ := h.pending row dlq rfl hpending
    refine ⟨hash, _, hlast.append hno, hhash, fun _ => ⟨(k, a), by simp, ?_⟩⟩
    refine ⟨⟨eventId, row.topic, row.payload, true⟩, ?_, rfl, rfl, hhash⟩
    have hmem : ⟨eventId, row.topic, row.payload, true⟩ ∈ attemptsOf a.attempts eventId := by
      simp [htried]
    exact (List.mem_filter.mp hmem).1
  | retries hdue hfailed hleft next =>
    obtain ⟨hash, after, hlast, hhash, -⟩ := h.pending row dlq rfl hpending
    exact ⟨hash, _, hlast.append hno, hhash, fun hpublished => absurd hopen hpublished⟩
  | givesUp hdue hfailed hlast hletters =>
    rcases hletters with ⟨-, rfl⟩ | ⟨-, hash, -, hnew⟩
    · have hleft := hkeeps call row dlq _ hk rfl hpending hopen hdue hfailed
      omega
    · rw [List.cons.injEq] at hnew
      rw [hnew.1] at hpending
      cases hpending

/-- **A step of the event** keeps it tracked, unless the dispatcher gives up on its replay. -/
theorem Tracked.step (h : Tracked eventId past v) (hkeeps : NotGivenUp maxAttempts eventId v k)
    (hstep : EventStep maxAttempts eventId k a v v') : Tracked eventId (past ++ [(k, a)]) v' := by
  cases hstep with
  | kept hattempts hinsert hreplay hresolved =>
    refine h.same fun ⟨hash, hreplayed⟩ => ?_
    have hrefused := hreplay hash hreplayed.1
    rw [hreplayed.2] at hrefused
    cases hrefused
  | inserted hk ha =>
    refine ⟨fun hnone => by simp at hnone, fun row dlq hv _ => ?_⟩
    have hletters := h.letters rfl
    simp only [View.mk.injEq] at hv hletters
    rw [hletters] at hv
    simp at hv
  | dispatched hk ha hopen hstep => exact h.dispatched hkeeps hk hopen hstep
  | migrated hk ha hstate hcurrent hmigrator hhash =>
    refine ⟨fun hnone => by simp at hnone, fun row dlq hv hpending => ?_⟩
    simp only [View.mk.injEq, List.cons.injEq, and_true] at hv
    rw [← hv.2] at hpending
    cases hpending
  | @scheduled row dlq hash hk ha hhash hdlq hstate =>
    refine ⟨fun hnone => by simp at hnone, fun row' dlq' hv _ => ?_⟩
    simp only [View.mk.injEq, Option.some.injEq, and_true] at hv
    obtain ⟨rfl, -⟩ := hv
    refine ⟨hash, [], .start ⟨hk, by rw [ha]; rfl⟩, hhash, ?_⟩
    exact fun hpublished => absurd rfl hpublished
  | resolved hk ha hstate hpublished =>
    refine ⟨fun hnone => by simp at hnone, fun row dlq hv hpending => ?_⟩
    simp only [View.mk.injEq, List.cons.injEq, and_true] at hv
    rw [← hv.2] at hpending
    cases hpending

/-! ## 3. Runs -/

theorem tracked_of_run {ks : List Call}
    (h : Log.Meeting (outbox maxAttempts) (KeepsReplaying maxAttempts) (Log.start .empty) ks)
    (eventId : String) :
    Tracked eventId ((Log.start .empty).calls (outbox maxAttempts) ks).past
      (((Log.start .empty).calls (outbox maxAttempts) ks).now.view eventId) := by
  refine Log.keeps (I := fun l => Tracked eventId l.past (l.now.view eventId)) ?_ ?_ h
  · intro l k hl hk
    exact hl.step (hk eventId) (outbox_step maxAttempts l.now k eventId)
  · exact ⟨fun _ => rfl, fun row dlq hv => by simp [State.view, State.empty] at hv⟩

theorem EventStep.of_markResolved (h : EventStep maxAttempts eventId k a v v')
    (hk : k.request = .markResolved eventId) (hok : a.result.isOk = true) :
    ∃ row dlq, v = ⟨some row, [dlq], []⟩ ∧ dlq.resolutionState = .REPLAY_PENDING ∧
      row.publishedAt ≠ none := by
  cases h with
  | kept hattempts hinsert hreplay hresolved => simp [hresolved hk] at hok
  | inserted hk' => simp [hk] at hk'
  | dispatched hk' => simp [hk] at hk'
  | migrated hk' => simp [hk] at hk'
  | scheduled hk' => simp [hk] at hk'
  | resolved hk' ha hstate hpublished => exact ⟨_, _, rfl, hstate, hpublished⟩

/-- **Resolved means delivered.**  After any run in which the dispatcher does not give up on an
event that waits for its replay, `mark_resolved` succeeds only if the event has been delivered
since it was last scheduled, with the payload approved then. -/
theorem resolved_delivered (maxAttempts : ℤ) (ks : List Call) (eventId : String) (commits : Bool)
    (h : Log.Meeting (outbox maxAttempts) (KeepsReplaying maxAttempts) (Log.start .empty) ks)
    (hok : (outbox maxAttempts ((Log.start .empty).calls (outbox maxAttempts) ks).now
      ⟨.markResolved eventId, commits⟩).1.result.isOk = true) :
    DeliveredSinceReplay ((Log.start .empty).calls (outbox maxAttempts) ks).past eventId := by
  have hstep := outbox_step maxAttempts ((Log.start .empty).calls (outbox maxAttempts) ks).now
    ⟨.markResolved eventId, commits⟩ eventId
  obtain ⟨row, dlq, hview, hstate, hpublished⟩ := hstep.of_markResolved rfl hok
  obtain ⟨hash, after, hlast, -, hdelivered⟩ :=
    (tracked_of_run h eventId).pending row dlq hview hstate
  exact ⟨hash, after, hlast, hdelivered hpublished⟩

end Hashes

/-! ## 4. An event that is given up twice -/

/-- Payloads are told apart by their texts. -/
@[reducible] def plainHashlib : Hashlib := ⟨id⟩

attribute [local instance] plainHashlib

def asStored : RowOrder := ⟨id, fun _ => .refl _⟩

/-- A call of the dispatcher during which the publisher does the same for every event. -/
def dispatchAll (now : ℤ) (outcome : Outcome) : Call :=
  ⟨.dispatchOnce ⟨now, asStored, fun _ => outcome, fun _ => 0⟩, true⟩

/-- An event is written, given up and scheduled again, with the hash of its payload; then the
publisher does this. -/
def replayed (outcome : Outcome) : List Call :=
  [⟨.insert "1" "ORDER_EVENT" [], true⟩, dispatchAll 1 (.failed "poison"),
    ⟨.scheduleReplay "1" "\x7b\x7d", true⟩, dispatchAll 2 outcome]

theorem replayed_keeps :
    Log.Meeting (outbox 1) (KeepsReplaying 1) (Log.start .empty) (replayed .delivered) := by
  refine ⟨?_, ?_, ?_, ?_, trivial⟩
  · rintro eventId call row dlq msg ⟨⟩
  · intro eventId call row dlq msg _ hv
    have hletters : [] = [dlq] := congrArg View.letters hv
    cases hletters
  · rintro eventId call row dlq msg ⟨⟩
  · rintro eventId call row dlq msg ⟨⟩ _ _ _ _ ⟨⟩

theorem resolved_delivered_replayed :
    DeliveredSinceReplay
      ((Log.start .empty).calls (outbox 1) (replayed .delivered)).past "1" :=
  resolved_delivered 1 (replayed .delivered) "1" true replayed_keeps (by decide)

/-- **An event that is given up again after its replay** is marked as resolved, and the publisher
has never taken it. -/
theorem undelivered_resolved :
    (outbox 1 ((Log.start .empty).calls (outbox 1) (replayed (.failed "poison"))).now
        ⟨.markResolved "1", true⟩).1.result.isOk = true ∧
      ¬ DeliveredSinceReplay
        ((Log.start .empty).calls (outbox 1) (replayed (.failed "poison"))).past "1" := by
  refine ⟨by decide, ?_⟩
  have hnever : ((Log.start .empty).calls (outbox 1) (replayed (.failed "poison"))).past.all
      (fun e => e.2.attempts.all fun attempt => !attempt.delivered) = true := by
    decide
  rintro ⟨hash, after, ⟨before, entry, hpast, -⟩, e, he, attempt, hattempt, -, hdelivered, -⟩
  rw [hpast, List.all_eq_true] at hnever
  have hmem : e ∈ before ++ entry :: after := by simp [he]
  have hnot := List.all_eq_true.mp (hnever e hmem) attempt hattempt
  simp [hdelivered] at hnot

end Kripto.Database
