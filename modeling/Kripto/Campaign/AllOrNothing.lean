/-
# Messages and quotes that are refused

`record_private_message` and `record_paper_quote` change the adapter first and emit after that.
Nothing is undone when an emission is refused, and a message makes several.

* `refused_whole_iff`: in every state a campaign reaches, a message or a quote that raises leaves
  everything as it was just when it had nothing to change before the first refusal.
* `refused_message_kept`, a balance that is stored although its event is refused.
-/
import Kripto.Campaign.Emission
import Kripto.Campaign.Operations
import Kripto.Paper.Quote

namespace Kripto.Campaign

open Effect Paper Kripto.Stream ProtectedCampaignRuntimeAdapter

/-! ## 1. What changes nothing -/

/-- What the event says is there already. -/
def Unmoved (p : PrivateStreamProjector) : UserEvent → Prop
  | .executionReport event => ¬ p.Accepts event
  | .balancePosition balances _ => ∀ asset amounts, balances.lookup asset = some amounts →
    p.balances.lookup asset = some amounts
  | .futuresPositionUpdate positions _ _ => ∀ symbol qty, positions.lookup symbol = some qty →
    p.positions.lookup symbol = some qty
  | .streamTerminated _ => p.terminated = true
  | .balanceUpdate .. | .unknownUserEvent _ => True

/-- A report is objected to when it repeats the last one of its order. -/
theorem objection_same (event : ExecutionReport) :
    PrivateStreamProjector.objection
      ⟨event.orderStatus, event.cumulativeQty, event.eventTimeMs⟩ event ≠ none := by
  simp [PrivateStreamProjector.objection]

theorem sameProjector_report_iff (p : PrivateStreamProjector) (event : ExecutionReport) :
    SameProjector p (p.projectReport event).2 ↔ ¬ p.Accepts event := by
  rcases PrivateStreamProjector.projectReport_cases p event with
    ⟨hplatform, -, heq⟩ | ⟨-, hseen, -, heq⟩ |
    ⟨-, -, previous, result, hprevious, hobjection, heq⟩ | ⟨hplatform, hseen, hprevious, heq⟩
  · rw [heq]
    exact iff_of_true (.refl p) fun h => by simp [h.platform] at hplatform
  · rw [heq]
    exact iff_of_true (.refl p) fun h => by simp [h.unseen] at hseen
  · rw [heq]
    exact iff_of_true (.refl p) fun h => by simp [h.unobjected previous hprevious] at hobjection
  · rw [heq]
    refine iff_of_false (fun h => ?_) (not_not.mpr ⟨hplatform, hseen, hprevious⟩)
    have hlookup := h.orderProgress.lookup event.clientOrderId
    rw [PrivateStreamProjector.applied, AList.lookup_insert] at hlookup
    exact objection_same event (hprevious _ hlookup)

theorem sameProjector_project_iff (p : PrivateStreamProjector) (event : UserEvent) :
    SameProjector p (p.project event).2 ↔ Unmoved p event := by
  cases event with
  | executionReport event => exact sameProjector_report_iff p event
  | balancePosition balances t =>
    refine Iff.trans ⟨fun h => h.balances, fun h => ?_⟩ Table.same_union_iff
    exact ⟨rfl, rfl, .refl _, .refl _, h, .refl _, rfl⟩
  | futuresPositionUpdate positions balances t =>
    refine Iff.trans ⟨fun h => h.positions, fun h => ?_⟩ Table.same_union_iff
    exact ⟨rfl, rfl, .refl _, .refl _, .refl _, h, rfl⟩
  | streamTerminated t =>
    exact ⟨fun h => h.terminated, fun h => ⟨rfl, rfl, .refl _, .refl _, .refl _, .refl _, h⟩⟩
  | balanceUpdate asset delta clearTime t => exact iff_of_true (.refl p) trivial
  | unknownUserEvent eventType => exact iff_of_true (.refl p) trivial

/-- The quote fills nothing. -/
def Passes (b : PaperBroker) (market : Snapshot) : Option LongIntent → Prop
  | some intent =>
    b.Refuses market.symbol intent.qty market.ask intent.stopLoss intent.takeProfits
  | none => b.Idle market.symbol market.bid

section Calls

variable [PyRuntime] [AdapterRuntime] [CollectionEncoding] [Statistics] {s : State}

/-! ## 2. Messages -/

/-- The first event of a message, and the others. -/
def privateEvent (eventId : String) (result : ProjectionResult) : String × Payload :=
  ("private_event", ("event_id", .str eventId) :: resultFields result)

def laterEvents (result : ProjectionResult) : List (String × Payload) :=
  (if result.classification ∈ [.DUPLICATE_FILL, .DUPLICATE_ORDER_EVENT] then
      [("private_duplicate_idempotency", resultFields result)] else []) ++
    (if result.classification ∈ [.STALE_ORDER_EVENT, .OUT_OF_ORDER_ORDER_EVENT] then
      [("private_out_of_order", resultFields result)] else []) ++
    [("private_redaction",
      [("recorded_fields", .arr [.str "event_id", .str "classification", .str "action"]),
        ("raw_credentials_recorded", .bool false)])]

omit [PyRuntime] [AdapterRuntime] [CollectionEncoding] [Statistics] in
theorem emitAll_append (observedAt : Moment) (producer : String)
    (events more : List (String × Payload)) :
    emitAll observedAt producer (events ++ more) =
      emitAll observedAt producer events >>= fun _ => emitAll observedAt producer more := by
  induction events with
  | nil => rfl
  | cons event rest ih => simp only [List.cons_append, emitAll, ih, bind_assoc]

omit [PyRuntime] [AdapterRuntime] [CollectionEncoding] [Statistics] in
theorem emitAll_onlyIf (observedAt : Moment) (producer : String) (c : Prop) [Decidable c]
    (event : String × Payload) :
    emitAll observedAt producer (if c then [event] else []) =
      onlyIf c (emit event.1 event.2 observedAt producer) := by
  unfold onlyIf
  split
  · exact bind_pure_unit
  · rfl

omit [PyRuntime] [AdapterRuntime] [CollectionEncoding] [Statistics] in
theorem privateEvents_eq (eventId : String) (result : ProjectionResult) (observedAt : Moment) :
    privateEvents eventId result observedAt =
      emitAll observedAt PRIVATE_PRODUCER (privateEvent eventId result :: laterEvents result) >>=
        fun _ => pure result := by
  simp only [privateEvents, privateEvent, laterEvents, emitAll, emitAll_append, emitAll_onlyIf,
    bind_assoc]
  rfl

/-- The entry of the first event, and those of all. -/
def firstEntry (s : State) (message : PrivateMessage) (observedAt : Moment) (clock : ℕ → ℤ)
    (result : ProjectionResult) : Entry :=
  let event := privateEvent message.eventId result
  Entry.attested event.1 event.2 observedAt.instant PRIVATE_PRODUCER s.adapter.telemetryKey
    (clock 0)

def messageEntries (s : State) (message : PrivateMessage) (observedAt : Moment) (clock : ℕ → ℤ)
    (result : ProjectionResult) : List Entry :=
  entriesOf s.adapter.telemetryKey observedAt PRIVATE_PRODUCER clock
    (privateEvent message.eventId result :: laterEvents result)

/-- A call that raises leaves everything as it was. -/
def Whole (s : State) (op : Operation) : Prop :=
  ∀ e, (op.run s).1 = .error e →
    SameAdapter s.adapter (op.run s).2.adapter ∧ (op.run s).2.file = s.file

/-- Either the first emission goes through and all others do, or what the message says is there
already. -/
def MessageWhole (s : State) (message : PrivateMessage) (observedAt : Moment) (clock : ℕ → ℤ) :
    Prop :=
  ∀ event, message.event = .ok event →
    let result := (s.adapter.projector.project event).1
    (Begins s.file observedAt (firstEntry s message observedAt clock result) →
      (messageEntries s message observedAt clock result).IsChain Succeeds) ∧
    (¬ Begins s.file observedAt (firstEntry s message observedAt clock result) →
      Unmoved s.adapter.projector event)

/-- What a message that is parsed comes to. -/
theorem run_message (clock : ℕ → ℤ) {message : PrivateMessage} {event : UserEvent}
    (hevent : message.event = .ok event) (observedAt : Moment) :
    let projected := s.adapter.projector.project event
    let out := (emitAll observedAt PRIVATE_PRODUCER
      (privateEvent message.eventId projected.1 :: laterEvents projected.1)).play
      (collectionScript s.adapter.telemetryKey) ⟨s.file, clock⟩
    Operation.run s (.adapter (.recordPrivateMessage message observedAt) clock) =
      ((out.1.map fun _ => .projection projected.1 : Except Exc Value),
        { s with
          adapter := { s.adapter with projector := projected.2 }, file := out.2.file }) := by
  intro projected out
  have hwork : s.adapter.recordPrivateMessage message observedAt =
      ⟨{ s.adapter with projector := projected.2 },
        privateEvents message.eventId projected.1 observedAt⟩ := by
    rw [recordPrivateMessage, hevent]
  have hplay : (privateEvents message.eventId projected.1 observedAt).play
      (collectionScript s.adapter.telemetryKey) ⟨s.file, clock⟩ =
      (out.1.map fun _ => projected.1, out.2) := by
    rw [privateEvents_eq]
    exact play_map _ (fun _ => projected.1) _
  simp only [Operation.run, Method.work, hwork, Work.map, play_map, hplay]
  cases out.1 <;> rfl

/-- **A message** is all or nothing just when its emissions go through once the first has, or what
it says is there already. -/
theorem message_whole_iff (s : State) (message : PrivateMessage) (observedAt : Moment)
    (clock : ℕ → ℤ) :
    Whole s (.adapter (.recordPrivateMessage message observedAt) clock) ↔
      MessageWhole s message observedAt clock := by
  cases hevent : message.event with
  | error e =>
    refine iff_of_true (fun _ _ => ?_) fun event h => ?_
    · simp only [Operation.run, Method.work, recordPrivateMessage, hevent]
      exact ⟨.refl _, rfl⟩
    · rw [hevent] at h
      cases h
  | ok event =>
    unfold Whole
    simp only [run_message clock hevent, MessageWhole, hevent, Except.ok.injEq, forall_eq']
    set projected := s.adapter.projector.project event
    obtain ⟨hrefused, hbegun⟩ := play_emitAll observedAt PRIVATE_PRODUCER s.adapter.telemetryKey
      (privateEvent message.eventId projected.1) (laterEvents projected.1) ⟨s.file, clock⟩
      (e := firstEntry s message observedAt clock projected.1) rfl
    by_cases hbegins : Begins s.file observedAt (firstEntry s message observedAt clock projected.1)
    · obtain ⟨hok, hgrown⟩ := hbegun hbegins
      rw [and_iff_left (fun hnot => absurd hbegins hnot), forall_prop_of_true hbegins]
      refine Iff.trans ?_ hok
      generalize Prog.play _ _ _ = out at hgrown ⊢
      obtain ⟨answer, left⟩ := out
      cases answer with
      | error exc => exact iff_of_false (fun h => hgrown (h exc rfl).2) (by simp)
      | ok => exact iff_of_true (fun exc h => by cases h) rfl
    · obtain ⟨⟨exc, hexc⟩, hfile⟩ := hrefused hbegins
      rw [and_iff_right (fun hyes => absurd hyes hbegins), forall_prop_of_true hbegins,
        ← sameProjector_project_iff]
      generalize Prog.play _ _ _ = out at hexc hfile ⊢
      obtain ⟨answer, left⟩ := out
      cases hexc
      refine ⟨fun h => (h exc rfl).1.projector, fun h _ _ => ⟨?_, hfile⟩⟩
      exact ⟨rfl, h, .refl _, rfl⟩

/-! ## 3. Quotes -/

omit [CollectionEncoding] [Statistics] in
theorem readSnapshot_pos {snapshot : Payload} {market : Snapshot}
    (h : readSnapshot snapshot = .ok market) : 0 < market.bid ∧ 0 < market.ask := by
  simp only [readSnapshot, bind_eq_ok_iff, raiseIf_eq_ok_iff, pure_eq_ok, Except.ok.injEq] at h
  obtain ⟨_, -, _, -, bid, -, ask, -, _, hvalid, rfl⟩ := h
  simp only [not_or, not_le] at hvalid
  exact ⟨hvalid.2.1, hvalid.2.2.1⟩

/-- The decision of a quote that fills. -/
def decisionOf : Option LongIntent → String
  | some _ => "LONG"
  | none => "EXIT"

omit [PyRuntime] [AdapterRuntime] [CollectionEncoding] [Statistics] in
theorem decideQuote_passes {self : ProtectedCampaignRuntimeAdapter} {market : Snapshot}
    {longIntent : Option LongIntent} (latencyMs : ℤ) (hb : self.paper.Solvent)
    (h : Passes self.paper market longIntent) :
    SameBroker self.paper (self.decideQuote market longIntent latencyMs).2 := by
  unfold decideQuote
  cases longIntent with
  | some intent =>
    obtain ⟨e, heq⟩ := PaperBroker.openLong_refused latencyMs market.bid h
    simp only [heq]
    exact .refl _
  | none =>
    obtain ⟨t, heq, hsame⟩ := PaperBroker.onQuote_idle latencyMs hb h
    simp only [heq]
    exact ⟨rfl, rfl, rfl, hsame⟩

omit [PyRuntime] [AdapterRuntime] [CollectionEncoding] [Statistics] in
theorem decideQuote_fills {self : ProtectedCampaignRuntimeAdapter} {market : Snapshot}
    {longIntent : Option LongIntent} (latencyMs : ℤ) (hb : self.paper.Solvent)
    (hpos : 0 < market.bid ∧ 0 < market.ask) (h : ¬ Passes self.paper market longIntent) :
    (self.decideQuote market longIntent latencyMs).1 = .ok (decisionOf longIntent) ∧
      ¬ SameBroker self.paper (self.decideQuote market longIntent latencyMs).2 := by
  unfold decideQuote
  cases longIntent with
  | some intent =>
    obtain ⟨made, position, heq, -⟩ :=
      PaperBroker.openLong_fills latencyMs market.bid hpos.2 h
    simp only [heq]
    exact ⟨rfl, fun hsame => by simpa using hsame.fills⟩
  | none =>
    obtain ⟨made, left, heq, hmade, hfills, -⟩ := PaperBroker.onQuote_sells latencyMs hb hpos.1 h
    simp only [heq, hmade, if_false]
    refine ⟨rfl, fun hsame => hmade ?_⟩
    simpa [hfills] using hsame.fills

/-- The sample of a quote on which a decision was taken. -/
def sampleEntry (s : State) (snapshot : Payload) (marketRegime : String) (observedAt : Moment)
    (clock : ℕ → ℤ) (market : Snapshot) (decision : String) (paper : PaperBroker) : Entry :=
  Entry.attested "paper_sample"
    (paperSample market (observationId snapshot market observedAt) decision marketRegime
      (paper.fills.drop s.adapter.paper.fills.length) paper.fills.length)
    observedAt.instant PAPER_PRODUCER s.adapter.telemetryKey (clock 0)

/-- The sample of a quote that fills. -/
def quoteEntry (s : State) (snapshot : Payload) (marketRegime : String) (observedAt : Moment)
    (longIntent : Option LongIntent) (latencyMs : ℤ) (clock : ℕ → ℤ) (market : Snapshot) : Entry :=
  sampleEntry s snapshot marketRegime observedAt clock market (decisionOf longIntent)
    (s.adapter.decideQuote market longIntent latencyMs).2

/-- The quote fills nothing, or its sample is recorded. -/
def QuoteWhole (s : State) (snapshot : Payload) (marketRegime : String) (observedAt : Moment)
    (longIntent : Option LongIntent) (latencyMs : ℤ) (clock : ℕ → ℤ) : Prop :=
  ∀ market, readSnapshot snapshot = .ok market →
    Passes s.adapter.paper market longIntent ∨
      Begins s.file observedAt
        (quoteEntry s snapshot marketRegime observedAt longIntent latencyMs clock market)

section Quote

variable {snapshot : Payload} {marketRegime decision : String} {observedAt : Moment}
  {longIntent : Option LongIntent} {latencyMs : ℤ} {market : Snapshot} {paper : PaperBroker}

/-- A quote that the broker refuses. -/
theorem run_quote_refused (clock : ℕ → ℤ) {e : Exc} (hmarket : readSnapshot snapshot = .ok market)
    (hdecided : s.adapter.decideQuote market longIntent latencyMs = (.error e, paper)) :
    Operation.run s (.adapter (.recordPaperQuote snapshot marketRegime observedAt longIntent
      latencyMs) clock) = (.error e, { s with adapter := { s.adapter with paper } }) := by
  simp only [Operation.run, Method.work, recordPaperQuote, hmarket, hdecided, Work.map]
  rfl

/-- A quote that the broker decides on: its sample is recorded, or the file is left alone. -/
theorem run_quote_cases (clock : ℕ → ℤ) (hmarket : readSnapshot snapshot = .ok market)
    (hdecided : s.adapter.decideQuote market longIntent latencyMs = (.ok decision, paper)) :
    let e := sampleEntry s snapshot marketRegime observedAt clock market decision paper
    let run := Operation.run s (.adapter (.recordPaperQuote snapshot marketRegime observedAt
      longIntent latencyMs) clock)
    (Begins s.file observedAt e ∧ run.1 = .ok (.decision decision)) ∨
    (¬ Begins s.file observedAt e ∧
      ∃ exc, run = (.error exc, { s with adapter := { s.adapter with paper } })) := by
  intro e run
  have hplay : ((Prog.ofExcept (S := CollectionSig) (.ok decision : Except Exc String) >>=
      fun decision => emit "paper_sample" (paperSample market
        (observationId snapshot market observedAt) decision marketRegime
        (paper.fills.drop s.adapter.paper.fills.length) paper.fills.length) observedAt
        PAPER_PRODUCER >>= fun _ => pure decision).play
      (collectionScript s.adapter.telemetryKey) ⟨s.file, clock⟩) = _ :=
    play_map _ (fun _ => decision) _
  have hrun : run = Operation.run s (.adapter (.recordPaperQuote snapshot marketRegime observedAt
      longIntent latencyMs) clock) := rfl
  simp only [Operation.run, Method.work, recordPaperQuote, hmarket, hdecided, Work.map, play_map,
    hplay] at hrun
  rcases play_emit_cases (e := e) ⟨s.file, clock⟩ rfl with
    ⟨hbegins, r, left, -, hemit⟩ | ⟨hnot, exc, left, hfile, hemit⟩
  · rw [hemit] at hrun
    exact .inl ⟨hbegins, by rw [hrun]; rfl⟩
  · rw [hemit] at hrun
    refine .inr ⟨hnot, exc, ?_⟩
    rw [hrun, hfile]
    rfl

/-- **A quote** is all or nothing just when it fills nothing or its sample is recorded. -/
theorem quote_whole_iff (s : State) (hb : s.adapter.paper.Solvent) (snapshot : Payload)
    (marketRegime : String) (observedAt : Moment) (longIntent : Option LongIntent)
    (latencyMs : ℤ) (clock : ℕ → ℤ) :
    Whole s (.adapter (.recordPaperQuote snapshot marketRegime observedAt longIntent latencyMs)
        clock) ↔
      QuoteWhole s snapshot marketRegime observedAt longIntent latencyMs clock := by
  cases hmarket : readSnapshot snapshot with
  | error e =>
    refine iff_of_true (fun _ _ => ?_) fun market h => by simp [hmarket] at h
    simp only [Operation.run, Method.work, recordPaperQuote, hmarket]
    exact ⟨.refl _, rfl⟩
  | ok market =>
    simp only [QuoteWhole, hmarket, Except.ok.injEq, forall_eq']
    by_cases hpasses : Passes s.adapter.paper market longIntent
    · refine iff_of_true (fun e he => ?_) (.inl hpasses)
      have hsame := decideQuote_passes latencyMs hb hpasses
      rcases hdecided : s.adapter.decideQuote market longIntent latencyMs with
        ⟨exc | decision, paper⟩
      · rw [hdecided] at hsame
        rw [run_quote_refused clock hmarket hdecided]
        exact ⟨⟨rfl, .refl _, hsame, rfl⟩, rfl⟩
      · rw [hdecided] at hsame
        rcases run_quote_cases clock hmarket hdecided with ⟨-, hok⟩ | ⟨-, exc, hrun⟩
        · rw [hok] at he
          cases he
        · rw [hrun]
          exact ⟨⟨rfl, .refl _, hsame, rfl⟩, rfl⟩
    · obtain ⟨hdecision, hchanged⟩ :=
        decideQuote_fills latencyMs hb (readSnapshot_pos hmarket) hpasses
      rw [or_iff_right hpasses]
      have hdecided : s.adapter.decideQuote market longIntent latencyMs =
          (.ok (decisionOf longIntent), (s.adapter.decideQuote market longIntent latencyMs).2) :=
        Prod.ext hdecision rfl
      rcases run_quote_cases clock hmarket hdecided with ⟨hbegins, hok⟩ | ⟨hnot, exc, hrun⟩
      · refine iff_of_true (fun e he => ?_) hbegins
        rw [hok] at he
        cases he
      · refine iff_of_false (fun h => ?_) hnot
        unfold Whole at h
        rw [hrun] at h
        exact hchanged (h exc rfl).1.paper

end Quote

/-! ## 4. Every reachable state -/

omit [PyRuntime] [AdapterRuntime] [CollectionEncoding] [Statistics] in
theorem solvent_decideQuote {self : ProtectedCampaignRuntimeAdapter} {market : Snapshot}
    (hb : self.paper.Solvent) (hpos : 0 < market.bid ∧ 0 < market.ask)
    (longIntent : Option LongIntent) (latencyMs : ℤ) :
    (self.decideQuote market longIntent latencyMs).2.Solvent := by
  unfold decideQuote
  cases longIntent with
  | some intent =>
    have hleft : (self.paper.openLong market.symbol intent.qty market.bid market.ask
        intent.stopLoss intent.takeProfits latencyMs).2.Solvent :=
      PaperBroker.solvent_openLong latencyMs hb hpos.2
    dsimp only
    generalize self.paper.openLong _ _ _ _ _ _ _ = out at hleft ⊢
    obtain ⟨answer, left⟩ := out
    cases answer <;> exact hleft
  | none =>
    have hleft : (self.paper.onQuote market.symbol market.bid latencyMs).2.Solvent :=
      PaperBroker.solvent_onQuote latencyMs hb hpos.1
    dsimp only
    generalize self.paper.onQuote _ _ _ = out at hleft ⊢
    obtain ⟨answer, left⟩ := out
    cases answer <;> exact hleft

omit [CollectionEncoding] [Statistics] in
theorem solvent_work (self : ProtectedCampaignRuntimeAdapter) (method : Method)
    (hb : self.paper.Solvent) : (method.work self).adapter.paper.Solvent := by
  cases method with
  | recordPrivateMessage message observedAt =>
    simp only [Method.work, Work.map, recordPrivateMessage]
    split <;> exact hb
  | recordPaperQuote snapshot marketRegime observedAt longIntent latencyMs =>
    simp only [Method.work, Work.map, recordPaperQuote]
    split
    · exact hb
    · rename_i market hmarket
      exact solvent_decideQuote hb (readSnapshot_pos hmarket) longIntent latencyMs
  | _ => exact hb

theorem solvent_act (s : State) (call : Call) (hb : s.adapter.paper.Solvent) :
    (act s call).2.adapter.paper.Solvent := by
  cases call with
  | operation op =>
    cases op with
    | adapter method clock => exact solvent_work s.adapter method hb
    | _ => exact hb
  | audit kind payload observedAt telemetryKey now =>
    simp only [act, audit]
    split <;> exact hb

theorem solvent_reached (telemetryKey : String) (file : File) (calls : List Call) :
    (reached telemetryKey file calls).adapter.paper.Solvent := by
  have hstart : ({ adapter := { telemetryKey }, file } : State).adapter.paper.Solvent :=
    PaperBroker.solvent_new
  exact Log.now_keeps solvent_act (l := Log.start _) hstart calls

/-- **Refused messages and quotes**, after any calls: what they leave is what they found just when
there was nothing to change before the first refusal. -/
theorem refused_whole_iff (telemetryKey : String) (file : File) (before : List Call) :
    let s := reached telemetryKey file before
    (∀ message observedAt clock,
      Whole s (.adapter (.recordPrivateMessage message observedAt) clock) ↔
        MessageWhole s message observedAt clock) ∧
    ∀ snapshot marketRegime observedAt longIntent latencyMs clock,
      Whole s (.adapter (.recordPaperQuote snapshot marketRegime observedAt longIntent latencyMs)
          clock) ↔
        QuoteWhole s snapshot marketRegime observedAt longIntent latencyMs clock := by
  intro s
  exact ⟨message_whole_iff s, quote_whole_iff s (solvent_reached telemetryKey file before)⟩

end Calls

/-! ## 5. A refused message -/

section Example

attribute [local instance] plainRuntime strokeEncoding fractionRuntime plainStatistics

/-- A collection that has been initialized. -/
def initializedFile : File :=
  [.record (headerRecord campaignBindings.candidateSha campaignBindings.environmentHash
    campaignBindings.topologyHash 0)]

/-- A balance observed too long ago. -/
def lateBalance : Operation :=
  .adapter (.recordPrivateMessage
      ⟨.ok (.balancePosition ((∅ : Table String (ℚ × ℚ)).insert "USDT" (5, 0)) 1), "e-1"⟩
      ⟨0, true⟩)
    fun _ => MAX_REALTIME_ATTESTATION_SKEW + 1

/-- **A refused message can be kept**: the balance is stored before its event is refused. -/
theorem refused_message_kept :
    ¬ Whole (reached campaignBindings.telemetryKey initializedFile []) lateBalance := by
  intro h
  have hraises : (lateBalance.run (reached campaignBindings.telemetryKey initializedFile [])).1 =
      .error (.valueError
        "attested realtime protected-runtime observation is backdated or future-skewed") := rfl
  obtain ⟨hsame, -⟩ := h _ hraises
  have hkeys := hsame.projector.balances.keys_eq_nil
  exact absurd (hkeys.mp rfl) (by decide)

end Example

end Kripto.Campaign
