/-
# The public market stream

`exchange/public_stream.py`: messages of many symbols come over one connection.  What comes late,
too late or with a gap is counted, and never put in order.

The clock of the process and that of the machine are read once a message; numbers are exact.

* `after_counts`: the counters say how many messages of each kind there have been, each judged by
  what had come under its own key;
* `healthy_iff`: so a stream is healthy just if under each key all has come in order.
-/
import Kripto.Effect.Marks
import Kripto.Effect.Object
import Kripto.Python.Json
import Mathlib.Algebra.Order.Field.Rat
import Mathlib.Tactic.Linarith

namespace Kripto.Stream.PublicStream

open Effect Python

/-! ## 1. Events -/

inductive Exc
  /-- `JSONDecodeError` is one. -/
  | valueError (msg : String)
  | typeError
  | attributeError
  | overflowError
  | other (name : String)
  deriving DecidableEq

/-- `int` of a text and of a float, and `str` of what is no text. -/
class StreamRuntime where
  intOfText : Text → Option ℤ
  intOfFloat : String → Except Exc ℤ
  str : PyValue → Text

structure PublicMarketEvent where
  stream : Text
  eventType : Text
  symbol : Option Text
  eventTimeMs : Option ℤ
  payload : Dict

/-- `event.stream or (event.symbol or "UNKNOWN")` -/
def PublicMarketEvent.key (event : PublicMarketEvent) : Text :=
  if event.stream ≠ [] then event.stream
  else if event.symbol.getD [] ≠ [] then event.symbol.getD [] else Text.of "UNKNOWN"

/-- `bool(v)` -/
def truthy : PyValue → Bool
  | .none => false
  | .bool b => b
  | .int n => n ≠ 0
  | .float repr => repr ∉ ["0.0", "-0.0"]
  | .str s => s ≠ []
  | .list items | .tuple items => !items.isEmpty
  | .dict items => !items.isEmpty
  | .other _ => true

/-- `"@" in stream`, what stands behind the first one, and what stands before it. -/
def hasAt (t : Text) : Bool := CodePoint.scalar '@' ∈ t

def behindAt (t : Text) : Text := (t.dropWhile fun c => c ≠ .scalar '@').drop 1

def beforeAt (t : Text) : Text := t.takeWhile fun c => c ≠ .scalar '@'

section Parse

variable [StreamRuntime]

def pyStr : PyValue → Text
  | .str s => s
  | v => StreamRuntime.str v

/-- `int(v)` -/
def pyInt : PyValue → Except Exc ℤ
  | .int n => .ok n
  | .bool b => .ok (if b then 1 else 0)
  | .str s =>
    match StreamRuntime.intOfText s with
    | some n => .ok n
    | none => .error (.valueError "invalid literal for int()")
  | .float repr => StreamRuntime.intOfFloat repr
  | _ => .error .typeError

/-- `int(v) if v is not None else None` -/
def optionalInt (v : PyValue) : Except Exc (Option ℤ) :=
  match v with
  | .none => .ok none
  | v => (pyInt v).map some

/-- `raw` is what `json.loads` makes of the message. -/
def parse (raw : Except Exc PyValue) : Except Exc PublicMarketEvent := do
  match ← raw with
  | .dict doc =>
    let stream := pyStr ((doc.lookup (.str (Text.of "stream"))).getD (.str []))
    match (doc.lookup (.str (Text.of "data"))).getD (.dict doc) with
    | .dict payload =>
      let suffix := if hasAt stream then behindAt stream else Text.of "unknown"
      let type := dictGet payload "e"
      let symbol := dictGet payload "s"
      let eventTime ← optionalInt (dictGet payload "E")
      return {
        stream := stream
        eventType := if truthy type then pyStr type else beforeAt suffix
        symbol := if truthy symbol then some (pyStr symbol) else none
        eventTimeMs := eventTime
        payload := payload }
    | _ => .error (.valueError "unexpected public stream payload")
  | _ => .error .attributeError

/-- The update ids of a diff-depth message: `U` and `u`. -/
def PublicMarketEvent.depthIds (event : PublicMarketEvent) : Except Exc (Option (ℤ × ℤ)) :=
  match dictGet event.payload "U", dictGet event.payload "u" with
  | .none, _ => .ok none
  | _, .none => .ok none
  | first, final =>
    if Text.of "@depth" <:+: event.stream then do
      return some (← pyInt first, ← pyInt final)
    else .ok none

end Parse

/-! ## 2. The stream -/

structure BinancePublicMarketStream where
  staleAfterSeconds : ℚ := 10
  maxEventDelayMs : ℤ := 5000
  lastMessageAt : Option ℚ := none
  reconnects : ℕ := 0
  badMessages : ℕ := 0
  sequenceGaps : ℕ := 0
  delayedEvents : ℕ := 0
  outOfOrderEvents : ℕ := 0
  clockAnomaly : Bool := false
  lastDepthFinal : Table Text ℤ := ∅
  lastEventTimeMs : Table Text ℤ := ∅

structure PublicStreamHealth where
  stale : Bool
  sequenceGaps : ℕ
  delayedEvents : ℕ
  outOfOrderEvents : ℕ
  clockAnomaly : Bool
  reconnects : ℕ
  badMessages : ℕ

def PublicStreamHealth.healthy (h : PublicStreamHealth) : Bool :=
  ¬ (h.stale ∨ h.sequenceGaps ≠ 0 ∨ h.delayedEvents ≠ 0 ∨ h.outOfOrderEvents ≠ 0 ∨ h.clockAnomaly ∨
    h.badMessages ≠ 0)

/-- A message, with what the monotonic clock and the wall clock read. -/
structure Message where
  now : ℚ
  wallTimeMs : ℤ
  raw : Except Exc PyValue

/-- What has become of a message. -/
inductive Received
  | event (event : PublicMarketEvent)
  | skipped
  | raised (e : Exc)

/-- `except (ValueError, TypeError, json.JSONDecodeError)` -/
def Exc.isBadMessage : Exc → Bool
  | .valueError _ | .typeError => true
  | _ => false

namespace BinancePublicMarketStream

variable (self : BinancePublicMarketStream)

/-- `is_stale`, which may take note of an anomaly of the clock. -/
def isStale (now : ℚ) : Bool × BinancePublicMarketStream :=
  match self.lastMessageAt with
  | none => (true, self)
  | some last =>
    if now < last then (true, { self with clockAnomaly := true })
    else (decide (self.staleAfterSeconds < now - last), self)

def health (now : ℚ) : PublicStreamHealth × BinancePublicMarketStream :=
  let (stale, self) := self.isStale now
  ({ stale := stale, sequenceGaps := self.sequenceGaps, delayedEvents := self.delayedEvents
     outOfOrderEvents := self.outOfOrderEvents, clockAnomaly := self.clockAnomaly
     reconnects := self.reconnects, badMessages := self.badMessages }, self)

/-- What `observe` does with the time of an event. -/
def observeTime (key : Text) (wallTimeMs time : ℤ) : BinancePublicMarketStream :=
  let self := match self.lastEventTimeMs.lookup key with
    | some previous =>
      if time < previous then { self with outOfOrderEvents := self.outOfOrderEvents + 1 }
      else { self with lastEventTimeMs := self.lastEventTimeMs.insert key time }
    | none => { self with lastEventTimeMs := self.lastEventTimeMs.insert key time }
  if self.maxEventDelayMs < wallTimeMs - time then
    { self with delayedEvents := self.delayedEvents + 1 }
  else self

/-- What `observe` does with the update ids of an event. -/
def observeDepth (key : Text) (first final : ℤ) : BinancePublicMarketStream :=
  match self.lastDepthFinal.lookup key with
  | some previous =>
    if final ≤ previous then { self with outOfOrderEvents := self.outOfOrderEvents + 1 }
    else
      let self := if previous + 1 < first then { self with sequenceGaps := self.sequenceGaps + 1 }
        else self
      { self with lastDepthFinal := self.lastDepthFinal.insert key final }
  | none => { self with lastDepthFinal := self.lastDepthFinal.insert key final }

variable [StreamRuntime]

/-- An exception leaves what has been done for the time of the event. -/
def observe (wallTimeMs : ℤ) (event : PublicMarketEvent) :
    Except Exc Unit × BinancePublicMarketStream :=
  let self := match event.eventTimeMs with
    | some time => self.observeTime event.key wallTimeMs time
    | none => self
  match event.depthIds with
  | .ok (some (first, final)) => (.ok (), self.observeDepth event.key first final)
  | .ok none => (.ok (), self)
  | .error e => (.error e, self)

/-- The clock is noted before the message is looked at. -/
def tick (now : ℚ) : BinancePublicMarketStream :=
  { self with
    clockAnomaly := self.clockAnomaly || self.lastMessageAt.any fun last => now < last
    lastMessageAt := some now }

def refused (e : Exc) : Received × BinancePublicMarketStream :=
  if e.isBadMessage then (.skipped, { self with badMessages := self.badMessages + 1 })
  else (.raised e, self)

/-- The body of `async for raw in websocket`, up to the handler. -/
def receive (m : Message) : Received × BinancePublicMarketStream :=
  let self := self.tick m.now
  match parse m.raw with
  | .error e => self.refused e
  | .ok event =>
    match self.observe m.wallTimeMs event with
    | (.ok (), self) => (.event event, self)
    | (.error e, self) => self.refused e

/-- `except Exception`: the connection is to be opened again. -/
def broken : BinancePublicMarketStream := { self with reconnects := self.reconnects + 1 }

end BinancePublicMarketStream

/-- What is called on a stream: `run` receives messages and counts broken connections, and anyone
asks for its health. -/
inductive Call
  | receive (m : Message)
  | health (now : ℚ)
  | broken

inductive Answer
  | received (r : Received)
  | health (h : PublicStreamHealth)
  | none

def act [StreamRuntime] : Object BinancePublicMarketStream Call Answer
  | self, .receive m => ((self.receive m).map .received id)
  | self, .health now => ((self.health now).map .health id)
  | self, .broken => (.none, self.broken)

/-! ## 3. What the tables and the counters hold -/

section Counting

variable [StreamRuntime]

/-- The update ids, if there are any that can be read. -/
def PublicMarketEvent.range (event : PublicMarketEvent) : Option (ℤ × ℤ) :=
  match event.depthIds with
  | .ok ids => ids
  | .error _ => none

/-- The times and the update ids that have come under a key. -/
def times (key : Text) (events : List PublicMarketEvent) : List ℤ :=
  events.filterMap fun event => if event.key = key then event.eventTimeMs else none

def ranges (key : Text) (events : List PublicMarketEvent) : List (ℤ × ℤ) :=
  events.filterMap fun event => if event.key = key then event.range else none

def finals (key : Text) (events : List PublicMarketEvent) : List ℤ := (ranges key events).map (·.2)

/-- An event of its stream with a later time has come before. -/
def Late (before : List PublicMarketEvent) (event : PublicMarketEvent) : Prop :=
  ∃ time ∈ event.eventTimeMs, ∃ earlier ∈ times event.key before, time < earlier

/-- Updates of its stream up to its final one or further have come before. -/
def Stale (before : List PublicMarketEvent) (event : PublicMarketEvent) : Prop :=
  ∃ ids ∈ event.range, ∃ earlier ∈ finals event.key before, ids.2 ≤ earlier

/-- It is not stale, and some updates between it and all that have come before are missing. -/
def Gap (before : List PublicMarketEvent) (event : PublicMarketEvent) : Prop :=
  ∃ ids ∈ event.range, finals event.key before ≠ [] ∧
    ∀ earlier ∈ finals event.key before, earlier < ids.2 ∧ earlier + 1 < ids.1

instance (before : List PublicMarketEvent) (event : PublicMarketEvent) :
    Decidable (Late before event) := inferInstanceAs (Decidable (∃ _ ∈ _, _))

instance (before : List PublicMarketEvent) (event : PublicMarketEvent) :
    Decidable (Stale before event) := inferInstanceAs (Decidable (∃ _ ∈ _, _))

instance (before : List PublicMarketEvent) (event : PublicMarketEvent) :
    Decidable (Gap before event) := inferInstanceAs (Decidable (∃ _ ∈ _, _ ∧ _))

variable {events : List PublicMarketEvent} {event : PublicMarketEvent} {key : Text}

omit [StreamRuntime] in
theorem times_concat : times key (events ++ [event]) =
    times key events ++ (if event.key = key then event.eventTimeMs else none).toList := by
  rw [times, List.filterMap_append]
  cases h : if event.key = key then event.eventTimeMs else none <;> simp [times, h]

theorem finals_concat : finals key (events ++ [event]) =
    finals key events ++ ((if event.key = key then event.range else none).map (·.2)).toList := by
  rw [finals, ranges, List.filterMap_append, List.map_append]
  cases h : if event.key = key then event.range else none <;> simp [finals, ranges, h]

namespace BinancePublicMarketStream

variable {self : BinancePublicMarketStream}

/-- Whether a time is earlier than the mark of its stream. -/
def isLate (self : BinancePublicMarketStream) (key : Text) (time : ℤ) : Bool :=
  (self.lastEventTimeMs.lookup key).any fun previous => time < previous

omit [StreamRuntime] in
/-- **What a time does**: a late one is counted, one that is not late is kept. -/
theorem observeTime_eq (self : BinancePublicMarketStream) (key : Text) (wallTimeMs time : ℤ) :
    self.observeTime key wallTimeMs time =
      { self with
        outOfOrderEvents := self.outOfOrderEvents + if self.isLate key time then 1 else 0
        lastEventTimeMs := if self.isLate key time then self.lastEventTimeMs
          else self.lastEventTimeMs.insert key time
        delayedEvents := self.delayedEvents +
          if self.maxEventDelayMs < wallTimeMs - time then 1 else 0 } := by
  unfold observeTime isLate
  cases h : self.lastEventTimeMs.lookup key with
  | none => by_cases hdelay : self.maxEventDelayMs < wallTimeMs - time <;> simp [hdelay]
  | some previous =>
    by_cases hlate : time < previous <;>
      by_cases hdelay : self.maxEventDelayMs < wallTimeMs - time <;> simp [hlate, hdelay]

omit [StreamRuntime] in
theorem marks_observeTime {time : ℤ} (wallTimeMs : ℤ)
    (h : Marks self.lastEventTimeMs fun key => times key events)
    (ht : event.eventTimeMs = some time) :
    Marks (self.observeTime event.key wallTimeMs time).lastEventTimeMs
        (fun key => times key (events ++ [event])) ∧
      (self.isLate event.key time = true ↔ Late events event) := by
  have hown : times event.key (events ++ [event]) =
      times event.key events ++ [time] := by
    simp [times_concat, ht]
  have hother : ∀ key, key ≠ event.key →
      times key (events ++ [event]) = times key events := by
    intro key hkey
    simp [times_concat, Ne.symm hkey]
  rw [observeTime_eq]
  cases hm : self.lastEventTimeMs.lookup event.key with
  | none =>
    have hlate : self.isLate event.key time = false := by simp [isLate, hm]
    have hnil := h.lookup_eq_none.mp hm
    refine ⟨?_, by simp [hlate, Late, ht, hnil]⟩
    simpa [hlate] using h.insert (by simp [hm]) hown hother
  | some previous =>
    have hlate : self.isLate event.key time = true ↔ time < previous := by simp [isLate, hm]
    refine ⟨?_, by simp [hlate, Late, ht, h.below_iff hm]⟩
    by_cases hlt : time < previous
    · simpa [hlate, hlt] using h.skip hm hlt.le hown hother
    · simpa [hlate, hlt] using h.insert (by simpa [hm] using not_lt.mp hlt) hown hother

/-- Whether updates are nothing new, and whether they are new and skip some. -/
def isOld (self : BinancePublicMarketStream) (key : Text) (final : ℤ) : Bool :=
  (self.lastDepthFinal.lookup key).any fun previous => final ≤ previous

def skips (self : BinancePublicMarketStream) (key : Text) (first final : ℤ) : Bool :=
  (self.lastDepthFinal.lookup key).any fun previous => previous < final ∧ previous + 1 < first

omit [StreamRuntime] in
/-- **What update ids do**: old ones are counted, new ones are kept, with a gap or without. -/
theorem observeDepth_eq (self : BinancePublicMarketStream) (key : Text) (first final : ℤ) :
    self.observeDepth key first final =
      { self with
        outOfOrderEvents := self.outOfOrderEvents + if self.isOld key final then 1 else 0
        sequenceGaps := self.sequenceGaps + if self.skips key first final then 1 else 0
        lastDepthFinal := if self.isOld key final then self.lastDepthFinal
          else self.lastDepthFinal.insert key final } := by
  unfold observeDepth isOld skips
  cases h : self.lastDepthFinal.lookup key with
  | none => simp
  | some previous =>
    by_cases hold : final ≤ previous
    · simp [hold, not_lt.mpr hold]
    · by_cases hgap : previous + 1 < first <;> simp [hold, hgap, not_le.mp hold]

theorem marks_observeDepth {ids : ℤ × ℤ}
    (h : Marks self.lastDepthFinal fun key => finals key events)
    (hi : event.range = some ids) :
    Marks (self.observeDepth event.key ids.1 ids.2).lastDepthFinal
        (fun key => finals key (events ++ [event])) ∧
      (self.isOld event.key ids.2 = true ↔ Stale events event) ∧
      (self.skips event.key ids.1 ids.2 = true ↔ Gap events event) := by
  have hown : finals event.key (events ++ [event]) = finals event.key events ++ [ids.2] := by
    simp [finals_concat, hi]
  have hother : ∀ key, key ≠ event.key →
      finals key (events ++ [event]) = finals key events := by
    intro key hkey
    simp [finals_concat, Ne.symm hkey]
  rw [observeDepth_eq]
  cases hm : self.lastDepthFinal.lookup event.key with
  | none =>
    have hold : self.isOld event.key ids.2 = false := by simp [isOld, hm]
    have hnil := h.lookup_eq_none.mp hm
    refine ⟨?_, by simp [hold, Stale, hi, hnil], by simp [skips, hm, Gap, hi, hnil]⟩
    simpa [hold] using h.insert (by simp [hm]) hown hother
  | some previous =>
    have hold : self.isOld event.key ids.2 = true ↔ ids.2 ≤ previous := by simp [isOld, hm]
    have hne : finals event.key events ≠ [] := by
      simp [← h.lookup_eq_none, hm]
    have hnew := h.above_iff (x := ids.2) hm
    have hbeyond := h.above_iff (x := ids.1 - 1) hm
    refine ⟨?_, ?_, ?_⟩
    · by_cases hle : ids.2 ≤ previous
      · simpa [hold, hle] using h.skip hm hle hown hother
      · simpa [hold, hle] using h.insert (by simpa [hm] using (not_le.mp hle).le) hown hother
    · rw [hold, ← not_lt, hnew]
      simp [Stale, hi]
    · simp only [skips, hm, Option.any_some, decide_eq_true_eq, Gap, hi, Option.mem_def,
        Option.some.injEq, exists_eq_left']
      rw [← lt_sub_iff_add_lt, hnew, hbeyond]
      simp [hne, forall_and, lt_sub_iff_add_lt]

/-- The tables and the counters, after these events have been observed. -/
structure Seen (events : List PublicMarketEvent) (stream : BinancePublicMarketStream) : Prop where
  times : Marks stream.lastEventTimeMs fun key => times key events
  finals : Marks stream.lastDepthFinal fun key => finals key events
  outOfOrder : stream.outOfOrderEvents = countAlong Late events + countAlong Stale events
  gaps : stream.sequenceGaps = countAlong Gap events

/-- What is done for the time of an event, and for its update ids, if it has them. -/
def noteTime (self : BinancePublicMarketStream) (wallTimeMs : ℤ) (event : PublicMarketEvent) :
    BinancePublicMarketStream :=
  event.eventTimeMs.elim self (self.observeTime event.key wallTimeMs)

def noteDepth (self : BinancePublicMarketStream) (event : PublicMarketEvent) :
    BinancePublicMarketStream :=
  event.range.elim self fun ids => self.observeDepth event.key ids.1 ids.2

/-- What `observe` leaves, whether it raises or not. -/
theorem observe_snd (self : BinancePublicMarketStream) (wallTimeMs : ℤ)
    (event : PublicMarketEvent) :
    (self.observe wallTimeMs event).2 = (self.noteTime wallTimeMs event).noteDepth event := by
  unfold observe noteTime noteDepth PublicMarketEvent.range
  cases event.eventTimeMs <;> rcases event.depthIds with _ | _ | ⟨first, final⟩ <;> rfl

/-- **An observation** is seen, whether it raises or not. -/
theorem Seen.observe (h : Seen events self) (wallTimeMs : ℤ) (event : PublicMarketEvent) :
    Seen (events ++ [event]) (self.observe wallTimeMs event).2 := by
  -- what is done for the time leaves the table of the update ids, and the other way round
  obtain ⟨htimes, hlate, hfinals, hgaps⟩ :
      Marks (self.noteTime wallTimeMs event).lastEventTimeMs
          (fun key => PublicStream.times key (events ++ [event])) ∧
        (self.noteTime wallTimeMs event).outOfOrderEvents =
          self.outOfOrderEvents + (if Late events event then 1 else 0) ∧
        (self.noteTime wallTimeMs event).lastDepthFinal = self.lastDepthFinal ∧
        (self.noteTime wallTimeMs event).sequenceGaps = self.sequenceGaps := by
    unfold noteTime
    cases ht : event.eventTimeMs with
    | none =>
      exact ⟨h.times.congr fun key => by simp [times_concat, ht], by simp [Late, ht], rfl, rfl⟩
    | some time =>
      obtain ⟨hmarks, hlate⟩ := marks_observeTime wallTimeMs h.times ht
      exact ⟨hmarks, by simp [observeTime_eq, hlate], by simp [observeTime_eq],
        by simp [observeTime_eq]⟩
  rw [observe_snd]
  unfold noteDepth
  generalize self.noteTime wallTimeMs event = left at *
  cases hi : event.range with
  | none =>
    refine ⟨htimes, ?_, ?_, ?_⟩
    · simpa [hfinals] using h.finals.congr fun key => by simp [finals_concat, hi]
    · simp [countAlong_concat, hlate, h.outOfOrder, Stale, hi]
      omega
    · simp [countAlong_concat, hgaps, h.gaps, Gap, hi]
  | some ids =>
    obtain ⟨hmarks, hold, hskips⟩ := marks_observeDepth (hfinals ▸ h.finals) hi
    refine ⟨by simpa [observeDepth_eq] using htimes, hmarks, ?_, ?_⟩
    · simp [observeDepth_eq, countAlong_concat, hlate, h.outOfOrder, hold]
      omega
    · simp [observeDepth_eq, countAlong_concat, hgaps, h.gaps, hskips]

end BinancePublicMarketStream

/-! ## 4. What the counters count -/

/-- What is handed on of a message: its event, if that and its update ids can be read. -/
def Message.handed (m : Message) : Except Exc PublicMarketEvent := do
  let event ← parse m.raw
  let _ ← event.depthIds
  return event

/-- A message that is left out. -/
def Message.bad (m : Message) : Bool :=
  match m.handed with
  | .ok _ => false
  | .error e => e.isBadMessage

/-- The time of its event, handed on or not. -/
def Message.time (m : Message) : Option ℤ := (parse m.raw).toOption.bind (·.eventTimeMs)

/-- That is too long ago. -/
def Message.delayed (maxEventDelayMs : ℤ) (m : Message) : Bool :=
  m.time.any fun time => maxEventDelayMs < m.wallTimeMs - time

/-- The events of the messages, handed on or not. -/
def eventsOf (messages : List Message) : List PublicMarketEvent :=
  messages.filterMap fun m => (parse m.raw).toOption

/-- The messages among the calls. -/
def messages (calls : List Call) : List Message :=
  calls.filterMap fun
    | .receive m => some m
    | _ => none

section Messages

variable {calls : List Call} {m : Message} {now : ℚ}

omit [StreamRuntime]

@[simp] theorem messages_receive : messages (calls ++ [.receive m]) = messages calls ++ [m] := by
  simp [messages]

@[simp] theorem messages_health : messages (calls ++ [.health now]) = messages calls := by
  simp [messages]

@[simp] theorem messages_broken : messages (calls ++ [.broken]) = messages calls := by
  simp [messages]

end Messages

/-- The clock has gone back since the last message. -/
def Back (before : List Call) : Call → Prop
  | .receive m => ∃ last ∈ (messages before).getLast?, m.now < last.now
  | .health now => ∃ last ∈ (messages before).getLast?, now < last.now
  | .broken => False

instance (before : List Call) : (call : Call) → Decidable (Back before call)
  | .receive m => inferInstanceAs (Decidable (∃ last ∈ List.getLast? _, m.now < Message.now last))
  | .health now => inferInstanceAs (Decidable (∃ last ∈ List.getLast? _, now < Message.now last))
  | .broken => inferInstanceAs (Decidable False)

def Call.isBroken : Call → Bool
  | .broken => true
  | _ => false

/-- The stream after these calls. -/
structure Tally (start : BinancePublicMarketStream) (calls : List Call)
    (stream : BinancePublicMarketStream) : Prop where
  seen : stream.Seen (eventsOf (messages calls))
  delayed : stream.delayedEvents =
    (messages calls).countP (Message.delayed start.maxEventDelayMs)
  bad : stream.badMessages = (messages calls).countP Message.bad
  reconnects : stream.reconnects = calls.countP Call.isBroken
  lastMessageAt : stream.lastMessageAt =
    (messages calls).getLast?.map Message.now
  clockAnomaly : stream.clockAnomaly = true ↔ 0 < countAlong Back calls
  maxEventDelayMs : stream.maxEventDelayMs = start.maxEventDelayMs
  staleAfterSeconds : stream.staleAfterSeconds = start.staleAfterSeconds

namespace BinancePublicMarketStream

variable {self start : BinancePublicMarketStream} {calls : List Call}

/-- An observation leaves all but its own counters and tables. -/
theorem observe_leaves (self : BinancePublicMarketStream) (wallTimeMs : ℤ)
    (event : PublicMarketEvent) :
    ∃ times finals outOfOrder gaps, (self.observe wallTimeMs event).2 =
      { self with
        lastEventTimeMs := times
        lastDepthFinal := finals
        outOfOrderEvents := outOfOrder
        sequenceGaps := gaps
        delayedEvents := self.delayedEvents +
          if event.eventTimeMs.any (fun time => self.maxEventDelayMs < wallTimeMs - time) then 1
          else 0 } := by
  rw [observe_snd]
  unfold noteDepth noteTime
  cases ht : event.eventTimeMs <;> cases event.range <;>
    simp only [Option.elim_none, Option.elim_some, observeTime_eq, observeDepth_eq,
      Option.any_none, Option.any_some, decide_eq_true_eq, Bool.false_eq_true, if_false,
      Nat.add_zero] <;>
    exact ⟨_, _, _, _, rfl⟩

theorem observe_fst (self : BinancePublicMarketStream) (wallTimeMs : ℤ)
    (event : PublicMarketEvent) :
    (self.observe wallTimeMs event).1 = event.depthIds.map fun _ => () := by
  unfold observe
  rcases event.depthIds with _ | _ | ⟨first, final⟩ <;> rfl

/-- What a message leaves before it is left out, if it is. -/
def noted (self : BinancePublicMarketStream) (m : Message) : BinancePublicMarketStream :=
  match parse m.raw with
  | .ok event => ((self.tick m.now).observe m.wallTimeMs event).2
  | .error _ => self.tick m.now

theorem receive_snd (self : BinancePublicMarketStream) (m : Message) :
    (self.receive m).2 =
      { self.noted m with badMessages := (self.noted m).badMessages + if m.bad then 1 else 0 } := by
  unfold receive noted Message.bad Message.handed
  cases hp : parse m.raw with
  | error e => cases hb : e.isBadMessage <;> simp [refused, bind, Except.bind, hb]
  | ok event =>
    have hfst := observe_fst (self.tick m.now) m.wallTimeMs event
    rcases hobs : (self.tick m.now).observe m.wallTimeMs event with ⟨r, left⟩
    rw [hobs] at hfst
    cases hd : event.depthIds with
    | error e =>
      rw [hd] at hfst
      obtain rfl : r = .error e := hfst
      cases hb : e.isBadMessage <;> simp [refused, bind, Except.bind, hobs, hd, hb]
    | ok ids =>
      rw [hd] at hfst
      obtain rfl : r = .ok () := hfst
      simp [bind, Except.bind, hobs, hd, pure, Except.pure]

end BinancePublicMarketStream

open BinancePublicMarketStream

variable {self start : BinancePublicMarketStream} {calls : List Call}

omit [StreamRuntime] in
theorem back_iff {before : List Call} {now : ℚ}
    (h : self.lastMessageAt = (messages before).getLast?.map Message.now) :
    (∃ last ∈ (messages before).getLast?, now < last.now) ↔
      self.lastMessageAt.any (fun last => decide (now < last)) = true := by
  rw [h]
  cases (messages before).getLast? <;> simp

/-- The clock of a stream, after one more call that looks at it. -/
theorem Tally.clock (h : Tally start calls self) {call : Call} {now : ℚ}
    (hback : Back calls call ↔
      ∃ last ∈ (messages calls).getLast?, now < last.now) :
    (self.clockAnomaly || self.lastMessageAt.any fun last => now < last) = true ↔
      0 < countAlong Back (calls ++ [call]) := by
  rw [Bool.or_eq_true, h.clockAnomaly, ← back_iff h.lastMessageAt, ← hback, countAlong_concat]
  by_cases hb : Back calls call <;> simp [hb]

/-- One more message. -/
theorem Tally.receive (h : Tally start calls self) (m : Message) :
    Tally start (calls ++ [.receive m]) (self.receive m).2 := by
  have htick : (self.tick m.now).Seen (eventsOf (messages calls)) :=
    ⟨h.seen.times, h.seen.finals, h.seen.outOfOrder, h.seen.gaps⟩
  have hclock : (self.tick m.now).clockAnomaly = true ↔
      0 < countAlong Back (calls ++ [.receive m]) := h.clock Iff.rfl
  rw [receive_snd]
  unfold noted
  cases hp : parse m.raw with
  | error e =>
    have htime : m.delayed start.maxEventDelayMs = false := by
      simp [Message.delayed, Message.time, hp, Except.toOption]
    have hevents : eventsOf (messages calls ++ [m]) = eventsOf (messages calls) := by
      simp [eventsOf, hp, Except.toOption]
    refine ⟨?_, ?_, ?_, ?_, ?_, hclock, h.maxEventDelayMs, h.staleAfterSeconds⟩
    · rw [messages_receive, hevents]
      exact ⟨htick.times, htick.finals, htick.outOfOrder, htick.gaps⟩
    · simp [htime, tick, h.delayed]
    · simp [tick, h.bad, List.countP_cons]
    · simp [tick, h.reconnects, Call.isBroken]
    · simp [tick]
  | ok event =>
    have htime : m.delayed start.maxEventDelayMs =
        event.eventTimeMs.any fun time => self.maxEventDelayMs < m.wallTimeMs - time := by
      simp [Message.delayed, Message.time, hp, Except.toOption, h.maxEventDelayMs]
    have hevents : eventsOf (messages calls ++ [m]) = eventsOf (messages calls) ++ [event] := by
      simp [eventsOf, hp, Except.toOption]
    have hseen := htick.observe m.wallTimeMs event
    obtain ⟨times, finals, outOfOrder, gaps, hleaves⟩ :=
      observe_leaves (self.tick m.now) m.wallTimeMs event
    simp only [hleaves] at hseen ⊢
    refine ⟨?_, ?_, ?_, ?_, ?_, hclock, h.maxEventDelayMs, h.staleAfterSeconds⟩
    · rw [messages_receive, hevents]
      exact ⟨hseen.times, hseen.finals, hseen.outOfOrder, hseen.gaps⟩
    · simp [htime, tick, h.delayed, List.countP_cons]
    · simp [tick, h.bad, List.countP_cons]
    · simp [tick, h.reconnects, Call.isBroken]
    · simp [tick]

/-- One more look at its health. -/
theorem Tally.health (h : Tally start calls self) (now : ℚ) :
    Tally start (calls ++ [.health now]) (self.health now).2 := by
  have hleft : (self.health now).2 = { self with
      clockAnomaly := self.clockAnomaly || self.lastMessageAt.any fun last => now < last } := by
    rcases self with ⟨_, _, _ | last, _⟩
    · simp [BinancePublicMarketStream.health, isStale]
    · by_cases hback : now < last <;> simp [BinancePublicMarketStream.health, isStale, hback]
  rw [hleft]
  refine ⟨?_, ?_, ?_, ?_, ?_, h.clock Iff.rfl, h.maxEventDelayMs, h.staleAfterSeconds⟩
  · rw [messages_health]
    exact ⟨h.seen.times, h.seen.finals, h.seen.outOfOrder, h.seen.gaps⟩
  · simpa using h.delayed
  · simpa using h.bad
  · simpa [Call.isBroken] using h.reconnects
  · simpa using h.lastMessageAt

/-- One more broken connection. -/
theorem Tally.broken (h : Tally start calls self) :
    Tally start (calls ++ [.broken]) self.broken := by
  unfold BinancePublicMarketStream.broken
  refine ⟨?_, ?_, ?_, ?_, ?_, ?_, h.maxEventDelayMs, h.staleAfterSeconds⟩
  · rw [messages_broken]
    exact ⟨h.seen.times, h.seen.finals, h.seen.outOfOrder, h.seen.gaps⟩
  · simpa using h.delayed
  · simpa using h.bad
  · simp [Call.isBroken, h.reconnects]
  · simpa using h.lastMessageAt
  · simpa [countAlong_concat, Back] using h.clockAnomaly

/-- **One call.** -/
theorem Tally.act (h : Tally start calls self) (call : Call) :
    Tally start (calls ++ [call]) (PublicStream.act self call).2 := by
  cases call with
  | receive m => exact h.receive m
  | health now => exact h.health now
  | broken => exact h.broken

/-- A stream as it is made. -/
def init (staleAfterSeconds : ℚ) (maxEventDelayMs : ℤ) : BinancePublicMarketStream :=
  { staleAfterSeconds := staleAfterSeconds, maxEventDelayMs := maxEventDelayMs }

variable {staleAfterSeconds : ℚ} {maxEventDelayMs : ℤ}

/-- The stream that these calls leave. -/
def after (staleAfterSeconds : ℚ) (maxEventDelayMs : ℤ) (calls : List Call) :
    BinancePublicMarketStream :=
  ((Log.start (init staleAfterSeconds maxEventDelayMs)).calls act calls).now

/-- **The counters count.**  Whatever has been called: the messages that were late, stale, delayed
or bad and those that left a gap are as many as the counters say, each judged by what had come
before under its own key. -/
theorem after_counts (staleAfterSeconds : ℚ) (maxEventDelayMs : ℤ) (calls : List Call) :
    Tally (init staleAfterSeconds maxEventDelayMs) calls
      (after staleAfterSeconds maxEventDelayMs calls) := by
  induction calls using List.reverseRecOn with
  | nil =>
    exact ⟨⟨Marks.empty, Marks.empty, rfl, rfl⟩, rfl, rfl, rfl, rfl, by simp [after, init], rfl,
      rfl⟩
  | append_singleton calls call ih =>
    unfold after at ih ⊢
    rw [Log.calls_append]
    exact ih.act call

/-! ## 5. Healthy streams -/

/-- The updates follow each other: each goes further than the one before, and skips nothing. -/
def Follows (ids ids' : ℤ × ℤ) : Prop := ids.2 < ids'.2 ∧ ids'.1 ≤ ids.2 + 1

omit [StreamRuntime] in
/-- The last updates go furthest. -/
theorem le_last {xs : List (ℤ × ℤ)} {last ids : ℤ × ℤ} (h : (xs ++ [last]).IsChain Follows)
    (hids : ids ∈ xs ++ [last]) : ids.2 ≤ last.2 := by
  have hlt : ((xs ++ [last]).map (·.2)).IsChain (· < ·) :=
    (List.isChain_map _).mpr (h.imp fun _ _ => And.left)
  obtain ⟨-, -, hlast⟩ := List.pairwise_append.mp (List.pairwise_map.mp hlt.pairwise)
  rcases List.mem_append.mp hids with hids | hids
  · exact (hlast ids hids last (by simp)).le
  · rw [List.mem_singleton.mp hids]

omit [StreamRuntime] in
/-- Neither old updates nor gaps: the updates follow each other. -/
theorem chain_follows_iff {xs : List (ℤ × ℤ)} :
    (countAlong (fun before ids => ∃ earlier ∈ before.map (·.2), ids.2 ≤ earlier) xs = 0 ∧
        countAlong (fun before ids => before.map (·.2) ≠ [] ∧
          ∀ earlier ∈ before.map (·.2), earlier < ids.2 ∧ earlier + 1 < ids.1) xs = 0) ↔
      xs.IsChain Follows := by
  induction xs using List.reverseRecOn with
  | nil => simp
  | append_singleton xs x ih =>
    rw [countAlong_concat, countAlong_concat, Nat.add_eq_zero_iff, Nat.add_eq_zero_iff,
      List.isChain_append, ← ih, and_and_and_comm]
    refine and_congr_right fun hxs => ?_
    rcases List.eq_nil_or_concat' xs with rfl | ⟨xs, last, rfl⟩
    · simp
    · have hle := fun ids => @le_last _ _ ids (ih.mp hxs)
      have hlast : last ∈ xs ++ [last] := by simp
      have hold : (∃ earlier ∈ (xs ++ [last]).map (·.2), x.2 ≤ earlier) ↔ x.2 ≤ last.2 := by
        constructor
        · rintro ⟨_, hmem, hx⟩
          obtain ⟨ids, hids, rfl⟩ := List.mem_map.mp hmem
          exact hx.trans (hle ids hids)
        · exact fun hx => ⟨last.2, List.mem_map_of_mem hlast, hx⟩
      have hgap : ((xs ++ [last]).map (·.2) ≠ [] ∧ ∀ earlier ∈ (xs ++ [last]).map (·.2),
          earlier < x.2 ∧ earlier + 1 < x.1) ↔ last.2 < x.2 ∧ last.2 + 1 < x.1 := by
        constructor
        · rintro ⟨-, hx⟩
          exact hx last.2 (List.mem_map_of_mem hlast)
        · rintro ⟨hfinal, hfirst⟩
          refine ⟨by simp, fun _ hmem => ?_⟩
          obtain ⟨ids, hids, rfl⟩ := List.mem_map.mp hmem
          have := hle ids hids
          omega
      simp only [hold, hgap]
      simp [Follows]
      omega

omit [StreamRuntime] in
theorem late_eq_zero_iff {events : List PublicMarketEvent} :
    countAlong Late events = 0 ↔ ∀ key, (times key events).Pairwise (· ≤ ·) := by
  rw [countAlong_keyed_eq_zero_iff (r := fun before time => ∃ earlier ∈ before, time < earlier)
    (f := fun key event => if event.key = key then event.eventTimeMs else none)]
  · exact forall_congr' fun key => countAlong_lt_eq_zero_iff
  · intro before event
    simp [Late, times]

/-- Under each key, the updates follow each other. -/
theorem stale_gap_eq_zero_iff {events : List PublicMarketEvent} :
    (countAlong Stale events = 0 ∧ countAlong Gap events = 0) ↔
      ∀ key, (ranges key events).IsChain Follows := by
  rw [countAlong_keyed_eq_zero_iff (p := Stale)
      (r := fun before ids => ∃ earlier ∈ before.map (·.2), ids.2 ≤ earlier)
      (f := fun key event => if event.key = key then event.range else none),
    countAlong_keyed_eq_zero_iff (p := Gap)
      (r := fun before ids => before.map (·.2) ≠ [] ∧
        ∀ earlier ∈ before.map (·.2), earlier < ids.2 ∧ earlier + 1 < ids.1)
      (f := fun key event => if event.key = key then event.range else none), ← forall_and]
  · exact forall_congr' fun key => chain_follows_iff
  · intro before event
    simp [Gap, finals, ranges]
  · intro before event
    simp [Stale, finals, ranges]

omit [StreamRuntime] in
theorem healthy_eq (self : BinancePublicMarketStream) (now : ℚ) :
    (self.health now).1.healthy = true ↔
      (∃ last ∈ self.lastMessageAt, last ≤ now ∧ now - last ≤ self.staleAfterSeconds) ∧
        self.clockAnomaly = false ∧ self.badMessages = 0 ∧ self.delayedEvents = 0 ∧
        self.outOfOrderEvents = 0 ∧ self.sequenceGaps = 0 := by
  unfold BinancePublicMarketStream.health isStale PublicStreamHealth.healthy
  cases self.lastMessageAt with
  | none => simp
  | some last =>
    by_cases hback : now < last
    · simp [hback, not_le.mpr hback]
    · simp [hback, not_lt.mp hback]
      tauto

/-- **A stream is healthy** just if it has had a message not long ago, its clock has never gone
back, every message could be read and was in time, and under each key the times have not decreased
and the updates have followed each other. -/
theorem healthy_iff (staleAfterSeconds : ℚ) (maxEventDelayMs : ℤ) (calls : List Call) (now : ℚ) :
    ((after staleAfterSeconds maxEventDelayMs calls).health now).1.healthy = true ↔
      (∃ last ∈ (messages calls).getLast?,
        last.now ≤ now ∧ now - last.now ≤ staleAfterSeconds) ∧
      (∀ before call rest, calls = before ++ call :: rest → ¬ Back before call) ∧
      (∀ m ∈ messages calls, m.bad = false ∧ m.delayed maxEventDelayMs = false) ∧
      ∀ key, (times key (eventsOf (messages calls))).Pairwise (· ≤ ·) ∧
        (ranges key (eventsOf (messages calls))).IsChain Follows := by
  have h := after_counts staleAfterSeconds maxEventDelayMs calls
  generalize after staleAfterSeconds maxEventDelayMs calls = stream at h ⊢
  have hclock : stream.clockAnomaly = false ↔
      ∀ before call rest, calls = before ++ call :: rest → ¬ Back before call := by
    rw [← countAlong_eq_zero_iff, ← Bool.not_eq_true, h.clockAnomaly, Nat.pos_iff_ne_zero, not_not]
  have hmessages : stream.badMessages = 0 ∧ stream.delayedEvents = 0 ↔
      ∀ m ∈ messages calls, m.bad = false ∧ m.delayed maxEventDelayMs = false := by
    rw [h.bad, h.delayed, List.countP_eq_zero, List.countP_eq_zero]
    simp [init, forall_and]
  have hkeys : stream.outOfOrderEvents = 0 ∧ stream.sequenceGaps = 0 ↔
      ∀ key, (times key (eventsOf (messages calls))).Pairwise (· ≤ ·) ∧
        (ranges key (eventsOf (messages calls))).IsChain Follows := by
    rw [h.seen.outOfOrder, h.seen.gaps, Nat.add_eq_zero_iff, and_assoc, late_eq_zero_iff,
      stale_gap_eq_zero_iff, forall_and]
  have hlast : (∃ last ∈ stream.lastMessageAt,
        last ≤ now ∧ now - last ≤ stream.staleAfterSeconds) ↔
      ∃ last ∈ (messages calls).getLast?, last.now ≤ now ∧ now - last.now ≤ staleAfterSeconds := by
    rw [h.lastMessageAt, h.staleAfterSeconds]
    cases (messages calls).getLast? <;> simp [init]
  rw [healthy_eq, hclock, hlast, ← hmessages, ← hkeys, and_assoc]

end Counting

end Kripto.Stream.PublicStream
