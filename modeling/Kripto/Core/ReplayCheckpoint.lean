/-
# Domain events, and what a replay checkpoint binds

`core/events.py`: events are replayed in the order of their sequence numbers by handlers, and a
replay checkpoint names the state it has reached and a hash of the events that led there.

The hash takes in the canonical JSON of each payload, the sequence number and the type of the
event, one after the other and without separators.  The two hashes at its beginning have 64
characters each, but where the sequence number ends and the type begins is known only from the place
of the event in the list, and that the places agree follows from the hashes before it.

Two event lists with the same chain hash have the same types, sequence numbers and canonical
payloads, event by event (`chain_alike`).  The hash leaves out everything else an event carries,
and the canonical payload is coarser than the payload (a tuple is written as a list, and
`default=str` writes a decimal as a text), so handlers that read more than that can tell the two
lists apart (`aggregate_unbound`).  A replay whose handlers do not comes out the same
(`replay_of_chain_hash`).

An event with a digest of zeros could be left out as well (`zeros_unbound`).  A checkpoint that was
created is verified for just what is hashed like its state and events (`verify_create_iff`).
-/
import Kripto.Effect.Outcome
import Kripto.Python.Json
import Kripto.Effect.Chain

namespace Kripto.Core

open Effect Python

/-! ## 1. Events -/

/-- An event.  Times are microseconds. -/
structure DomainEvent where
  eventType : Text
  aggregateId : Text
  payload : Dict
  schemaVersion : ℤ := 1
  sequence : ℤ := 1
  eventId : Text
  correlationId : Text
  causationId : Option Text := none
  eventTime : ℤ
  receivedAt : ℤ
  producerVersion : Text := Text.of "0.3.0"

/-- What a replay raises; `handler` is what a handler or an upcaster raises.  A replay whose
upcasters never come to an end `diverges`. -/
inductive ReplayError (ε : Type)
  | replayError (msg : String)
  | handler (e : ε)
  | diverges

def DomainEvent.le (e e' : DomainEvent) : Prop := e.sequence ≤ e'.sequence

instance : DecidableRel DomainEvent.le := fun e e' =>
  inferInstanceAs (Decidable (e.sequence ≤ e'.sequence))

/-- `sorted(events, key=lambda e: e.sequence)`. -/
def ordered (events : List DomainEvent) : List DomainEvent := events.insertionSort DomainEvent.le

/-! ## 2. Replay -/

section Replay

variable {σ ε : Type}

/-- The handlers and upcasters, by the types of events and the versions of their schemas. -/
structure EventReplayer (σ ε : Type) where
  handlers : Text → Option (σ → DomainEvent → Except ε σ)
  upcasters : Text → ℤ → Option (DomainEvent → Except ε DomainEvent) := fun _ _ => none

/-- The loop of the upcasters. -/
def EventReplayer.upcast (r : EventReplayer σ ε) :
    ℕ → DomainEvent → Except (ReplayError ε) DomainEvent
  | fuel, e =>
    match r.upcasters e.eventType e.schemaVersion with
    | none => .ok e
    | some upcaster =>
      match fuel with
      | 0 => .error .diverges
      | fuel + 1 => do r.upcast fuel (← (upcaster e).mapError .handler)

/-- The loop of `replay`; `i` is the sequence number to come. -/
def EventReplayer.replayFrom (r : EventReplayer σ ε) (fuel : ℕ) :
    ℤ → σ → List DomainEvent → Except (ReplayError ε) σ
  | _, state, [] => .ok state
  | i, state, e :: events =>
    if e.sequence ≠ i then .error (.replayError "sequence gap or duplicate")
    else do
      let e ← r.upcast fuel e
      match r.handlers e.eventType with
      | none => .error (.replayError "unknown event type")
      | some handler =>
        r.replayFrom fuel (i + 1) (← (handler state e).mapError .handler) events

def EventReplayer.replay (r : EventReplayer σ ε) (fuel : ℕ) (events : List DomainEvent)
    (initial : σ) : Except (ReplayError ε) σ :=
  r.replayFrom fuel 1 initial (ordered events)

end Replay

/-! ## 3. Checkpoints -/

inductive Exc
  | dumpError (e : DumpError)
  | replayError (msg : String)

structure ReplayCheckpoint where
  lastSequence : ℕ
  stateHash : String
  eventChainHash : String
  producerVersion : Text

/-- `'0' * 64`. -/
def ZEROS : String := String.ofList (List.replicate 64 '0')

/-- `json.dumps(payload, sort_keys=True, separators=(',', ':'), default=str).encode()`. -/
def DomainEvent.payloadText (e : DomainEvent) : Except DumpError String :=
  (PyValue.dict e.payload).bytes { defaultStr := true }

section Hashes

variable [Hashlib]

def DomainEvent.payloadHash (e : DomainEvent) : Except DumpError String := do
  return Hashlib.sha256 (← e.payloadText)

/-- What is hashed with an event. -/
def chainText (h : String) (e : DomainEvent) : Except DumpError String := do
  match (Text.of h ++ Text.of (← e.payloadHash) ++ Text.of (toString e.sequence) ++
    e.eventType).encode with
  | some text => return text
  | none => .error .unicodeEncodeError

/-- The turn of an event. -/
def chainStep (h : String) (e : DomainEvent) : Except DumpError String := do
  return Hashlib.sha256 (← chainText h e)

def eventChainHash (events : List DomainEvent) : Except DumpError String :=
  (ordered events).foldlM chainStep ZEROS

/-- `_stable_hash`. -/
def stableHash (value : PyValue) : Except DumpError String := do
  return Hashlib.sha256 (← value.bytes { defaultStr := true })

/-- The sequence numbers are those from 1 on. -/
def GapFree (events : List DomainEvent) : Prop :=
  (ordered events).map DomainEvent.sequence = (List.range' 1 events.length).map Int.ofNat

instance (events : List DomainEvent) : Decidable (GapFree events) :=
  inferInstanceAs (Decidable (_ = _))

def createReplayCheckpoint (state : PyValue) (events : List DomainEvent)
    (producerVersion : Text := Text.of "0.3.0") : Except Exc ReplayCheckpoint := do
  if ¬ GapFree events then .error (.replayError "sequence gap or duplicate")
  else
    let stateHash ← (stableHash state).mapError .dumpError
    let chainHash ← (eventChainHash events).mapError .dumpError
    return ⟨events.length, stateHash, chainHash, producerVersion⟩

def verifyReplayCheckpoint (checkpoint : ReplayCheckpoint) (state : PyValue)
    (events : List DomainEvent) : Except DumpError Bool := do
  if events.length ≠ checkpoint.lastSequence then return false
  else
    if checkpoint.stateHash ≠ (← stableHash state) then return false
    else return checkpoint.eventChainHash = (← eventChainHash events)

end Hashes

/-! ## 4. Events that are hashed alike -/

/-- What the hash of an event takes in is the same. -/
structure DomainEvent.Alike (e e' : DomainEvent) : Prop where
  eventType : e.eventType = e'.eventType
  sequence : e.sequence = e'.sequence
  payload : e.payloadText = e'.payloadText

/-- The handlers read no more of an event than its type, its sequence number and the canonical JSON
of its payload. -/
def EventReplayer.ReadsHashed {σ ε : Type} (r : EventReplayer σ ε) : Prop :=
  ∀ eventType handler, r.handlers eventType = some handler → ∀ state e e',
    DomainEvent.Alike e e' → handler state e = handler state e'

theorem upcast_none {σ ε : Type} {r : EventReplayer σ ε} (h : r.upcasters = fun _ _ => none)
    (fuel : ℕ) (e : DomainEvent) : r.upcast fuel e = .ok e := by
  cases fuel <;> simp [EventReplayer.upcast, h]

/-- **A replay** of alike events comes out the same. -/
theorem replayFrom_alike {σ ε : Type} {r : EventReplayer σ ε}
    (hupcasters : r.upcasters = fun _ _ => none) (hreads : r.ReadsHashed) (fuel : ℕ)
    {events events' : List DomainEvent} (h : List.Forall₂ DomainEvent.Alike events events') (i : ℤ)
    (state : σ) : r.replayFrom fuel i state events = r.replayFrom fuel i state events' := by
  induction h generalizing i state with
  | nil => rfl
  | @cons e e' events events' halike _ ih =>
    rw [EventReplayer.replayFrom, EventReplayer.replayFrom, halike.sequence]
    split
    · rfl
    · rw [upcast_none hupcasters, upcast_none hupcasters, ok_bind, ok_bind, halike.eventType]
      cases hhandler : r.handlers e'.eventType with
      | none => rfl
      | some handler =>
        dsimp only
        rw [hreads _ handler hhandler state e e' halike]
        exact bind_congr fun state => ih _ state

/-! ## 5. The hashes -/

/-- The place of an event in a list without gaps. -/
theorem GapFree.sequence_eq {events before after : List DomainEvent} {e : DomainEvent}
    (h : GapFree events) (hsplit : ordered events = before ++ e :: after) :
    e.sequence = before.length + 1 := by
  have hat := congrArg (fun sequences => sequences[before.length]?) h
  rw [hsplit] at hat
  have hlt : before.length < events.length := by
    rw [← (List.perm_insertionSort DomainEvent.le events).length_eq, ← ordered, hsplit]
    simp
  simp [hlt] at hat
  omega

section Hashes

variable [Hashlib]

/-- What is hashed for the chain of these events: the payloads, and what is hashed with each
event. -/
def HashedTexts (events : List DomainEvent) : Set String :=
  {text | (∃ e ∈ events, e.payloadText = .ok text) ∨ ∃ before e after h,
    ordered events = before ++ e :: after ∧ before.foldlM chainStep ZEROS = .ok h ∧
      chainText h e = .ok text}

/-- The chain hash without its exceptions. -/
def chainTurn : String → DomainEvent → String := turn chainStep ""

variable {events events' : List DomainEvent} {hash : String}

/-- What a turn of the chain hashes: two hashes of 64 characters, the sequence number and the
type. -/
structure Hashing (events : List DomainEvent) (h : String) (e : DomainEvent)
    (text payload : String) : Prop where
  length : h.length = 64
  turn_eq : chainTurn h e = Hashlib.sha256 text
  payload_eq : e.payloadText = .ok payload
  text_eq : Text.of text = Text.of h ++ Text.of (Hashlib.sha256 payload) ++
    Text.of (toString e.sequence) ++ e.eventType
  text_mem : text ∈ HashedTexts events
  payload_mem : payload ∈ HashedTexts events

theorem chainText_eq_ok {h text : String} {e : DomainEvent} (hok : chainText h e = .ok text) :
    ∃ payload, e.payloadText = .ok payload ∧ Text.of text = Text.of h ++
      Text.of (Hashlib.sha256 payload) ++ Text.of (toString e.sequence) ++ e.eventType := by
  simp only [chainText, DomainEvent.payloadHash, bind_eq_ok_iff, pure_eq_ok,
    Except.ok.injEq] at hok
  obtain ⟨_, ⟨payload, hpayload, rfl⟩, hencode⟩ := hok
  refine ⟨payload, hpayload, ?_⟩
  split at hencode
  · rename_i encoded hencoded
    cases hencode
    exact (Text.encode_eq_some_iff.mp hencoded).symm
  · cases hencode

/-- **Every turn** of a chain hash that was computed. -/
theorem hashing_of_step (hlength : ∀ text, (Hashlib.sha256 text).length = 64)
    (hhash : eventChainHash events = .ok hash) {p : String × DomainEvent}
    (hp : p ∈ Steps chainTurn ZEROS (ordered events)) :
    ∃ text payload, Hashing events p.1 p.2 text payload := by
  obtain ⟨before, after, hsplit, hfold⟩ := hp
  rw [eventChainHash, hsplit] at hhash
  have hturn : chainStep p.1 p.2 = .ok (chainTurn p.1 p.2) := by
    rw [hfold]
    exact turn_of_foldlM "" hhash
  have hbefore : before.foldlM chainStep ZEROS = .ok p.1 := by
    rw [List.foldlM_append, bind_eq_ok_iff] at hhash
    obtain ⟨h, hh, -⟩ := hhash
    rw [hh, hfold, chainTurn, foldl_turn "" hh]
  simp only [chainStep, bind_eq_ok_iff, pure_eq_ok, Except.ok.injEq] at hturn
  obtain ⟨text, htext, hsha⟩ := hturn
  obtain ⟨payload, hpayload, heq⟩ := chainText_eq_ok htext
  have hmem : p.2 ∈ events := by
    have hordered : p.2 ∈ ordered events := by simp [hsplit]
    exact (List.perm_insertionSort DomainEvent.le events).mem_iff.mp hordered
  refine ⟨text, payload, ?_, hsha.symm, hpayload, heq, ?_, .inl ⟨_, hmem, hpayload⟩⟩
  · rcases List.eq_nil_or_concat' before with rfl | ⟨older, e, rfl⟩
    · rw [hfold]
      exact (by decide : ZEROS.length = 64)
    · rw [List.foldlM_append, bind_eq_ok_iff] at hbefore
      obtain ⟨h, -, he⟩ := hbefore
      simp only [List.foldlM_cons, List.foldlM_nil, chainStep, bind_eq_ok_iff, pure_eq_ok,
        Except.ok.injEq] at he
      obtain ⟨_, ⟨_, -, rfl⟩, heq⟩ := he
      rw [← heq]
      exact hlength _
  · exact .inr ⟨before, p.2, after, p.1, hsplit, hbefore, htext⟩

omit [Hashlib] in
/-- Texts that begin with a hash begin with the same one, if they are the same. -/
theorem hash_append_inj {h h' : String} {rest rest' : Text} (hlength : h.length = h'.length)
    (heq : Text.of h ++ rest = Text.of h' ++ rest') : h = h' ∧ rest = rest' := by
  obtain ⟨hhash, hrest⟩ := List.append_inj heq (by rw [Text.length_of, Text.length_of, hlength])
  exact ⟨Text.of_injective hhash, hrest⟩

/-- **The chain hash binds** the type, the sequence number and the canonical payload of every
event. -/
theorem chain_alike (hlength : ∀ text, (Hashlib.sha256 text).length = 64)
    (hinjective : Set.InjOn Hashlib.sha256 (HashedTexts events ∪ HashedTexts events'))
    (hzeros : ∀ text ∈ HashedTexts events ∪ HashedTexts events', Hashlib.sha256 text ≠ ZEROS)
    (hgap : GapFree events) (hgap' : GapFree events') (hhash : eventChainHash events = .ok hash)
    (hhash' : eventChainHash events' = .ok hash) :
    List.Forall₂ DomainEvent.Alike (ordered events) (ordered events') := by
  have hsame : ∀ {p p'}, p ∈ Steps chainTurn ZEROS (ordered events) →
      p' ∈ Steps chainTurn ZEROS (ordered events') → chainTurn p.1 p.2 = chainTurn p'.1 p'.2 →
      p.1 = p'.1 ∧ p.2.payloadText = p'.2.payloadText ∧
        Text.of (toString p.2.sequence) ++ p.2.eventType =
          Text.of (toString p'.2.sequence) ++ p'.2.eventType := by
    intro p p' hp hp' hturn
    obtain ⟨text, payload, ht⟩ := hashing_of_step hlength hhash hp
    obtain ⟨text', payload', ht'⟩ := hashing_of_step hlength hhash' hp'
    rw [ht.turn_eq, ht'.turn_eq] at hturn
    obtain rfl := hinjective (.inl ht.text_mem) (.inr ht'.text_mem) hturn
    have htexts := ht.text_eq.symm.trans ht'.text_eq
    simp only [List.append_assoc] at htexts
    obtain ⟨hprevious, hafter⟩ := hash_append_inj (ht.length.trans ht'.length.symm) htexts
    obtain ⟨hpayload, hrest⟩ := hash_append_inj ((hlength _).trans (hlength _).symm) hafter
    obtain rfl := hinjective (.inl ht.payload_mem) (.inr ht'.payload_mem) hpayload
    exact ⟨hprevious, ht.payload_eq.trans ht'.payload_eq.symm, hrest⟩
  refine foldl_alike ?_ (fun p hp p' hp' h => (hsame hp hp' h).1) ?_
    ((foldl_turn "" hhash).trans (foldl_turn "" hhash').symm)
  · rintro p (hp | hp)
    · obtain ⟨text, payload, ht⟩ := hashing_of_step hlength hhash hp
      exact ht.turn_eq ▸ hzeros text (.inl ht.text_mem)
    · obtain ⟨text, payload, ht⟩ := hashing_of_step hlength hhash' hp
      exact ht.turn_eq ▸ hzeros text (.inr ht.text_mem)
  · intro before e after before' e' after' hsplit hsplit' hplace hturn
    have hp : (before.foldl chainTurn ZEROS, e) ∈ Steps chainTurn ZEROS (ordered events) :=
      ⟨before, after, hsplit, rfl⟩
    have hp' : (before'.foldl chainTurn ZEROS, e') ∈ Steps chainTurn ZEROS (ordered events') :=
      ⟨before', after', hsplit', rfl⟩
    obtain ⟨-, hpayload, hrest⟩ := hsame hp hp' hturn
    have hsequence : e.sequence = e'.sequence := by
      rw [hgap.sequence_eq hsplit, hgap'.sequence_eq hsplit', hplace]
    rw [hsequence] at hrest
    exact ⟨List.append_cancel_left hrest, hsequence, hpayload⟩

/-- **A replay checkpoint binds** what the handlers read: event lists without gaps that have the
same chain hash are replayed alike, by any handlers that read of an event its type, its sequence
number and its canonical payload. -/
theorem replay_of_chain_hash {σ ε : Type} (hlength : ∀ text, (Hashlib.sha256 text).length = 64)
    (events events' : List DomainEvent)
    (hinjective : Set.InjOn Hashlib.sha256 (HashedTexts events ∪ HashedTexts events'))
    (hzeros : ∀ text ∈ HashedTexts events ∪ HashedTexts events', Hashlib.sha256 text ≠ ZEROS)
    (hgap : GapFree events) (hgap' : GapFree events') (hash : String)
    (hhash : eventChainHash events = .ok hash) (hhash' : eventChainHash events' = .ok hash)
    (r : EventReplayer σ ε) (hupcasters : r.upcasters = fun _ _ => none)
    (hreads : r.ReadsHashed) (fuel : ℕ) (initial : σ) :
    r.replay fuel events initial = r.replay fuel events' initial :=
  replayFrom_alike hupcasters hreads fuel
    (chain_alike hlength hinjective hzeros hgap hgap' hhash hhash') 1 initial

/-! ## 6. What the hash leaves out -/

omit hash in
/-- Nothing else goes into the chain hash. -/
theorem chainStep_alike {e e' : DomainEvent} (h : DomainEvent.Alike e e') (hash : String) :
    chainStep hash e = chainStep hash e' := by
  simp only [chainStep, chainText, DomainEvent.payloadHash, h.payload, h.sequence, h.eventType]

/-- **Alike events** have the same chain hash. -/
theorem eventChainHash_alike
    (h : List.Forall₂ DomainEvent.Alike (ordered events) (ordered events')) :
    eventChainHash events = eventChainHash events' := by
  rw [eventChainHash, eventChainHash]
  generalize ordered events = es, ordered events' = es', ZEROS = hash at h
  induction h generalizing hash with
  | nil => rfl
  | cons halike _ ih =>
    rw [List.foldlM_cons, List.foldlM_cons, chainStep_alike halike]
    exact bind_congr ih

omit hash in
/-- **A checkpoint that was created** is verified for just the states and events that are hashed
like those it was created from, and as many. -/
theorem verify_create_iff {state state' : PyValue} {version : Text} {checkpoint : ReplayCheckpoint}
    (h : createReplayCheckpoint state events version = .ok checkpoint) :
    verifyReplayCheckpoint checkpoint state' events' = .ok true ↔
      events'.length = events.length ∧ stableHash state' = stableHash state ∧
        eventChainHash events' = eventChainHash events := by
  unfold createReplayCheckpoint at h
  split at h
  · exact nomatch h
  cases hstate : stableHash state with
  | error e =>
    rw [hstate] at h
    exact nomatch h
  | ok stateHash =>
  cases hchain : eventChainHash events with
  | error e =>
    rw [hstate, hchain] at h
    exact nomatch h
  | ok chainHash =>
  rw [hstate, hchain] at h
  obtain rfl := Except.ok.inj h
  rw [verifyReplayCheckpoint]
  split
  · rename_i hlength
    exact iff_of_false nofun fun h => hlength h.1
  · rename_i hlength
    rw [not_not] at hlength
    cases hstate' : stableHash state' with
    | error e => exact iff_of_false nofun fun h => nomatch h.2.1
    | ok hash =>
      rw [ok_bind]
      by_cases hsame : stateHash = hash
      · subst hsame
        cases eventChainHash events' with
        | error e => simp
        | ok hash' => simp [hlength, eq_comm]
      · simp [hsame, Ne.symm hsame]

/-- An event whose hash were the zeros that a chain begins with would go unnoticed. -/
theorem zeros_unbound {e : DomainEvent} (h : chainStep ZEROS e = .ok ZEROS) :
    eventChainHash [e] = eventChainHash [] := by
  change (chainStep ZEROS e >>= pure) = _
  rw [bind_pure, h]
  rfl

theorem chainStep_isOk {e : DomainEvent} {payload : String} (hpayload : e.payloadText = .ok payload)
    (htype : Text.Encodable e.eventType) (hash : String) : (chainStep hash e).isOk = true := by
  have hencodable : (Text.of hash ++ Text.of (Hashlib.sha256 payload) ++
      Text.of (toString e.sequence) ++ e.eventType).Encodable :=
    (((Text.encodable_of _).append (Text.encodable_of _)).append (Text.encodable_of _)).append htype
  simp only [chainStep, chainText, DomainEvent.payloadHash, hpayload, ok_bind, pure_bind,
    hencodable.encode]
  rfl

end Hashes

def filled (aggregateId : String) (payload : Dict) : DomainEvent where
  eventType := Text.of "ORDER_FILLED"
  aggregateId := Text.of aggregateId
  payload := payload
  eventId := Text.of "1"
  correlationId := Text.of "1"
  eventTime := 0
  receivedAt := 0

/-- The one handler. -/
def handled {σ : Type} (handler : σ → DomainEvent → Except Empty σ) : EventReplayer σ Empty where
  handlers eventType := if eventType = Text.of "ORDER_FILLED" then some handler else none

theorem readsHashed_handled {σ : Type} {handler : σ → DomainEvent → Except Empty σ}
    (h : ∀ state e e', DomainEvent.Alike e e' → handler state e = handler state e') :
    (handled handler).ReadsHashed := by
  intro eventType handler' hhandler
  simp only [handled, Option.ite_none_right_eq_some, Option.some.injEq] at hhandler
  obtain ⟨-, rfl⟩ := hhandler
  exact h

/-- A digest of 64 characters that tells apart what is no longer than a digest and what is. -/
@[reducible] def lengths : Hashlib :=
  ⟨fun text => String.ofList (List.replicate 64 (if text.length ≤ 64 then 'a' else 'b'))⟩

/-- What is hashed for a single event, by that digest. -/
theorem hashedTexts_filled {aggregateId text : String}
    (h : text ∈ @HashedTexts lengths [filled aggregateId []]) :
    text = "\x7b\x7d" ∨ Text.of text = Text.of ZEROS ++ Text.of (lengths.sha256 "\x7b\x7d") ++
      Text.of "1" ++ Text.of "ORDER_FILLED" := by
  have hpayload : (filled aggregateId []).payloadText = .ok "\x7b\x7d" := rfl
  rcases h with ⟨e, he, htext⟩ | ⟨before, e, after, h, hsplit, hfold, htext⟩
  · obtain rfl := List.mem_singleton.mp he
    exact .inl (Except.ok.inj (htext.symm.trans hpayload))
  · obtain ⟨rfl, rfl, rfl⟩ : before = [] ∧ e = filled aggregateId [] ∧ after = [] := by
      have hnil := List.append_eq_cons_iff.mp hsplit.symm
      simpa using hnil
    obtain rfl : ZEROS = h := Except.ok.inj hfold
    obtain ⟨payload, hok, heq⟩ := @chainText_eq_ok lengths _ _ _ htext
    obtain rfl : "\x7b\x7d" = payload := Except.ok.inj (hpayload.symm.trans hok)
    exact .inr heq

theorem sha256_filled {text : String}
    (h : Text.of text = Text.of ZEROS ++ Text.of (lengths.sha256 "\x7b\x7d") ++
      Text.of "1" ++ Text.of "ORDER_FILLED") :
    lengths.sha256 text = String.ofList (List.replicate 64 'b') := by
  have hlong : ¬ text.length ≤ 64 := by
    have hlength := congrArg List.length h
    have hzeros : ZEROS.length = 64 := by decide
    have hdigits : "1".length = 1 := by decide
    simp only [List.length_append, Text.length_of] at hlength
    omega
  change String.ofList (List.replicate 64 (if text.length ≤ 64 then 'a' else 'b')) = _
  rw [if_neg hlong]

theorem sha256_short : lengths.sha256 "\x7b\x7d" = String.ofList (List.replicate 64 'a') := by
  change String.ofList (List.replicate 64 (if "\x7b\x7d".length ≤ 64 then 'a' else 'b')) = _
  rw [if_pos (by decide)]

theorem ofList_replicate_ne {c c' : Char} (h : c ≠ c') :
    String.ofList (List.replicate 64 c) ≠ String.ofList (List.replicate 64 c') := by
  intro heq
  have htexts := congrArg String.toList heq
  rw [String.toList_ofList, String.toList_ofList] at htexts
  exact h ((List.replicate_right_inj (by decide)).mp htexts)

/-- A digest of a short text is no digest of a long one. -/
theorem short_ne_long :
    lengths.sha256 "\x7b\x7d" ≠ String.ofList (List.replicate 64 'b') := by
  rw [sha256_short]
  exact ofList_replicate_ne (by decide)

theorem injOn_filled : Set.InjOn lengths.sha256
    (@HashedTexts lengths [filled "a" []] ∪ @HashedTexts lengths [filled "b" []]) := by
  intro text htext text' htext' heq
  have hcases : ∀ {text}, text ∈ @HashedTexts lengths [filled "a" []] ∪
      @HashedTexts lengths [filled "b" []] → _ :=
    fun {text} h => h.elim hashedTexts_filled hashedTexts_filled
  rcases hcases htext with rfl | h <;> rcases hcases htext' with rfl | h'
  · rfl
  · exact absurd (heq.trans (sha256_filled h')) short_ne_long
  · exact absurd (heq.symm.trans (sha256_filled h)) short_ne_long
  · exact Text.of_injective (h.trans h'.symm)

theorem sha256_filled_ne_zeros {aggregateId text : String}
    (h : text ∈ @HashedTexts lengths [filled aggregateId []]) : lengths.sha256 text ≠ ZEROS := by
  rcases hashedTexts_filled h with rfl | htext
  · rw [sha256_short]
    exact ofList_replicate_ne (by decide)
  · rw [sha256_filled htext]
    exact ofList_replicate_ne (by decide)

theorem alike_filled (aggregateId aggregateId' : String) :
    DomainEvent.Alike (filled aggregateId []) (filled aggregateId' []) := ⟨rfl, rfl, rfl⟩

/-- A single event is hashed like any event that is alike. -/
theorem eventChainHash_filled [Hashlib] {aggregateId aggregateId' payload : String}
    {d d' : Dict} (hpayload : (filled aggregateId d).payloadText = .ok payload)
    (halike : DomainEvent.Alike (filled aggregateId d) (filled aggregateId' d')) :
    ∃ hash, eventChainHash [filled aggregateId d] = .ok hash ∧
      eventChainHash [filled aggregateId' d'] = .ok hash := by
  have hok := chainStep_isOk hpayload (Text.encodable_of _) ZEROS
  cases hstep : chainStep ZEROS (filled aggregateId d) with
  | error e => simp [hstep, Except.isOk, Except.toBool] at hok
  | ok hash =>
    have hchain : eventChainHash [filled aggregateId d] = .ok hash := by
      rw [← hstep]
      exact bind_pure _
    have halikes : List.Forall₂ DomainEvent.Alike (ordered [filled aggregateId d])
        (ordered [filled aggregateId' d']) := .cons halike .nil
    exact ⟨hash, hchain, (eventChainHash_alike halikes) ▸ hchain⟩

theorem replay_of_chain_hash_filled :
    (handled fun n e => .ok (n + e.sequence)).replay 0 [filled "a" []] 0 =
      (handled fun n e => .ok (n + e.sequence)).replay 0 [filled "b" []] 0 := by
  obtain ⟨hash, hhash, hhash'⟩ :=
    @eventChainHash_filled lengths "a" "b" _ [] [] rfl (alike_filled "a" "b")
  refine @replay_of_chain_hash lengths _ _ (fun text => ?_) _ _ injOn_filled ?_ rfl rfl hash hhash
    hhash' _ rfl ?_ 0 0
  · change (String.ofList (List.replicate 64 _)).length = 64
    simp
  · exact fun text h => h.elim sha256_filled_ne_zeros sha256_filled_ne_zeros
  · exact readsHashed_handled fun n e e' halike => by rw [halike.sequence]

/-- **The aggregate** an event is about is left out: lists that no hash function tells apart are
told apart by a handler that reads it. -/
theorem aggregate_unbound :
    GapFree [filled "a" []] ∧ GapFree [filled "b" []] ∧
      (∀ [Hashlib], ∃ hash, eventChainHash [filled "a" []] = .ok hash ∧
        eventChainHash [filled "b" []] = .ok hash) ∧
      (handled fun _ e => .ok e.aggregateId).replay 0 [filled "a" []] [] ≠
        (handled fun _ e => .ok e.aggregateId).replay 0 [filled "b" []] [] := by
  refine ⟨rfl, rfl, eventChainHash_filled rfl (alike_filled "a" "b"), fun h => ?_⟩
  have haggregate := Except.ok.inj h
  revert haggregate
  decide

/-- So is whether a quantity is a text or a decimal that is shown as this text. -/
theorem payload_unbound :
    (∀ [Hashlib], ∃ hash,
        eventChainHash [filled "a" [(.str (Text.of "qty"), .str (Text.of "1"))]] = .ok hash ∧
        eventChainHash [filled "a" [(.str (Text.of "qty"), .other (Text.of "1"))]] = .ok hash) ∧
      (handled fun _ e => .ok ((dictGet e.payload "qty").isText (Text.of "1"))).replay 0
          [filled "a" [(.str (Text.of "qty"), .str (Text.of "1"))]] false ≠
        (handled fun _ e => .ok ((dictGet e.payload "qty").isText (Text.of "1"))).replay 0
          [filled "a" [(.str (Text.of "qty"), .other (Text.of "1"))]] false := by
  refine ⟨eventChainHash_filled rfl ⟨rfl, rfl, rfl⟩, fun h => ?_⟩
  have htext := Except.ok.inj h
  revert htext
  decide

end Kripto.Core
