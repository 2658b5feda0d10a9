/-
# Audit records and acceptance

`append_collection_event` says of its records that they can never contribute to acceptance
metrics.  Two runs over the file on the disk are compared: one with `audit` calls anywhere in it,
and the one without them.

* `audits_unseen_of_harmless`: the operations of both runs answer alike, metrics included, and
  the same attested events are recorded, as long as every audit record was written whole and
  reads back as it was, no operation reads a clock that is behind one, and no reconciliation meets
  one that it could pair (`Harmless`);
* `audits_seen`: `record_live_shadow_reconciliation` reads the rows without asking whether they
  are attested.  Two audit records make it pass, and emit an attested event, in a collection
  that holds no observation at all.
-/
import Kripto.Campaign.Growth
import Kripto.Campaign.OnDisk
import Kripto.Campaign.Operations
import Kripto.Effect.Purge

namespace Kripto.Campaign

open Effect CollectionEncoding Entry ProtectedCampaignRuntimeAdapter

section Comparison

variable [PyRuntime] [CollectionEncoding] {K : Set String} {ys : List Entry} {file file' : File}
  {rows rows' : List LoadedRow} {now : ℤ} {key : String}

/-! ## 1. What is read of a collection -/

omit [PyRuntime] in
theorem event_blind (kind : String) : Blind ys (LoadedRow.event kind) where
  entry verified hr hr' := by
    simp [LoadedRow.event, LoadedRow.payload, hr.recordType, hr'.recordType, hr.kind, hr'.kind,
      hr.eligible, hr'.eligible, hr.payload, hr'.payload, hr.observedAt, hr'.observedAt]
  audit e _ r _ _ := by simp [LoadedRow.event]

omit [PyRuntime] in
theorem events_eq (h : RowsAlike ys rows rows') : events rows = events rows' :=
  funext fun kind => h.filterMap_eq (event_blind kind)

/-- **The metrics do not see audit records.** -/
theorem deriveCollectionMetrics_eq [Statistics] (h : RowsAlike ys rows rows') :
    deriveCollectionMetrics rows = deriveCollectionMetrics rows' := by
  simp only [deriveCollectionMetrics, events_eq h]

omit [PyRuntime] in
theorem attestedEvent_record {e : Entry} {r r' : Payload} (hr : e.Describes r)
    (hr' : e.Describes r') : attestedEvent (.record r) = attestedEvent (.record r') := by
  simp [attestedEvent, hr.eligible, hr'.eligible, hr.kind, hr'.kind, hr.producer, hr'.producer,
    hr.observedAt, hr'.observedAt, hr.payload, hr'.payload]

/-- **Nor are they attested events.** -/
theorem attestedEvents_eq (h : Alike K ys file file') :
    attestedEvents file = attestedEvents file' := by
  induction h with
  | same file => rfl
  | shared h _ hr hr' ih =>
    obtain ⟨-, _, _, -, hfollows⟩ := hr
    obtain ⟨-, _, _, -, hfollows'⟩ := hr'
    rw [attestedEvents, attestedEvents] at ih ⊢
    simp only [List.filterMap_append, List.filterMap_cons, List.filterMap_nil, ih,
      attestedEvent_record hfollows.toDescribes hfollows'.toDescribes]
  | audit h hnone hr ih =>
    obtain ⟨-, _, _, -, hfollows⟩ := hr
    rw [attestedEvents, attestedEvents] at ih ⊢
    simp [ih, attestedEvent, isBool, hfollows.eligible, hnone]

/-- What a reconciliation would pair: a sample or an observation that says its market data are
real and that has an id. -/
def Pairable (e : Entry) : Prop :=
  e.kind ∈ ["paper_sample", "live_shadow_observation"] ∧
    isText (e.payload.lookup "market_data_origin") "REAL" = true ∧
    PyRuntime.strip (field e.payload "observation_id" "") ≠ ""

theorem observation_blind (kind decisionField : String)
    (hkind : kind ∈ ["paper_sample", "live_shadow_observation"])
    (hys : ∀ e ∈ ys, ¬ Pairable e) : Blind ys (observation kind decisionField) where
  entry verified hr hr' := by
    unfold observation
    rw [hr.recordType, hr'.recordType, hr.kind, hr'.kind, hr.payload, hr'.payload]
  audit e he r _ hr := by
    have hnot := hys e he
    simp only [observation, hr.recordType, hr.kind, hr.payload, isText_iff, if_true,
      ite_eq_right_iff]
    rintro ⟨hsame, horigin, hid⟩
    simp only [Option.some.injEq, Json.str.injEq] at hsame
    subst hsame
    exact absurd ⟨hkind, by simpa using horigin, hid⟩ hnot

theorem pairing_eq (h : RowsAlike ys rows rows') (hys : ∀ e ∈ ys, ¬ Pairable e) :
    pairing rows = pairing rows' := by
  have hpaper := h.filterMap_eq (observation_blind "paper_sample" "decision" (by simp) hys)
  have hshadow := h.filterMap_eq
    (observation_blind "live_shadow_observation" "strategy_decision" (by simp) hys)
  simp only [pairing, observations, hpaper, hshadow]

theorem candidateOf_eq (h : LoadedAlike ys now file file' rows rows') :
    candidateOf rows = candidateOf rows' := by
  obtain ⟨st, st', hst, hst', halike, hsome, rfl, rfl⟩ := h
  obtain ⟨binding, hbinding⟩ := Option.isSome_iff_exists.mp hsome
  obtain ⟨header, last, hends⟩ := hst.endsOf_eq_ok hbinding
  obtain ⟨header', last', hends'⟩ := hst'.endsOf_eq_ok (halike.headerBinding ▸ hbinding)
  have hheader := (hst.ends hends).2.1
  rw [halike.headerBinding, (hst'.ends hends').2.1, Option.some.injEq] at hheader
  simp only [candidateOf, hends, hends', ok_bind,
    item_congr (congrArg Binding.candidateSha hheader)]

/-! ## 2. The methods of the adapter -/

/-- The two files before a method, and a clock that is not behind the audit records. -/
structure SiteAlike (K : Set String) (ys : List Entry) (site site' : Site) : Prop where
  clock : site.clock = site'.clock
  notBefore : ∀ n, ∀ e ∈ ys, e.recordedAt ≤ site.clock n
  file : Alike K ys site.file site'.file

section

variable {site site' : Site}

theorem SiteAlike.tick (h : SiteAlike K ys site site') (hfile : Alike K ys file file') :
    SiteAlike K ys (site.tick file) (site'.tick file') :=
  ⟨funext fun n => congrFun h.clock (n + 1), fun n => h.notBefore (n + 1), hfile⟩

variable (hK : K.InjOn keyDigest) (hkey : key ∈ K)

include hK hkey

theorem emit_unaffected (kind : String) (payload : Payload) (observedAt : Moment)
    (producer : String) : (emit kind payload observedAt producer).Unaffected
      (collectionScript key) (SiteAlike K ys) := by
  refine (Prog.Unaffected.ofExcept _).bind fun observed => .perform fun site site' h => ?_
  have hentry : ∀ y ∈ ys, y.recordedAt ≤ site.clock 0 := h.notBefore 0
  have hloaded : ∀ key' ∈ some key, key' ∈ K := by simpa using hkey
  have happend := append_alike (e := attested kind payload observed producer key (site.clock 0))
    hK h.file hloaded hloaded (by simp [attested]) hentry
  rw [← appendAttestedRuntimeEvent_eq, ← appendAttestedRuntimeEvent_eq] at happend
  have hclock : site'.clock 0 = site.clock 0 := (congrFun h.clock 0).symm
  simp only [collectionScript, hclock]
  exact ⟨happend.1.map_eq fun _ _ _ => rfl, h.tick happend.2⟩

/-- A program that goes on alike with what it loads. -/
theorem load_unaffected {α : Type} {k : List LoadedRow → Prog CollectionSig α}
    (hsame : ∀ {now file file' rows rows'}, LoadedAlike ys now file file' rows rows' →
      k rows = k rows')
    (hk : ∀ rows, (k rows).Unaffected (collectionScript key) (SiteAlike K ys)) :
    (load >>= k).Unaffected (collectionScript key) (SiteAlike K ys) := by
  intro site site' h
  have hloaded : ∀ key' ∈ some key, key' ∈ K := by simpa using hkey
  have hload := loadCollection_alike {} hK h.file hloaded (h.notBefore 0)
  have hclock : site'.clock 0 = site.clock 0 := (congrFun h.clock 0).symm
  rw [play_load_bind, play_load_bind, hclock]
  generalize loadCollection site.file (some key) (site.clock 0) = x at hload ⊢
  generalize loadCollection site'.file (some key) (site.clock 0) = x' at hload ⊢
  cases hload with
  | ok hrows =>
    dsimp only
    rw [hsame hrows]
    exact hk _ _ _ (h.tick h.file)
  | error e => exact ⟨rfl, h.tick h.file⟩

variable [AdapterRuntime]

omit hK hkey [AdapterRuntime] in
theorem map_unaffected {α β : Type} {w : Work α} (f : α → β)
    (h : w.script.Unaffected (collectionScript key) (SiteAlike K ys)) :
    (w.map f).script.Unaffected (collectionScript key) (SiteAlike K ys) :=
  h.bind fun _ => .ret _

omit hK hkey [AdapterRuntime] in
theorem onlyIf_unaffected {c : Prop} [Decidable c] {p : Prog CollectionSig Unit}
    (h : p.Unaffected (collectionScript key) (SiteAlike K ys)) :
    (onlyIf c p).Unaffected (collectionScript key) (SiteAlike K ys) := by
  unfold onlyIf
  split
  · exact h
  · exact .ret ()

omit [AdapterRuntime] in
theorem privateEvents_unaffected (eventId : String) (result : Kripto.Stream.ProjectionResult)
    (observedAt : Moment) : (privateEvents eventId result observedAt).Unaffected
      (collectionScript key) (SiteAlike K ys) := by
  have hemit := @emit_unaffected _ _ K ys key hK hkey
  refine (hemit _ _ _ _).bind fun _ => ?_
  refine (onlyIf_unaffected (hemit _ _ _ _)).bind fun _ => ?_
  refine (onlyIf_unaffected (hemit _ _ _ _)).bind fun _ => ?_
  exact (hemit _ _ _ _).bind fun _ => .ret _

omit [AdapterRuntime] in
theorem authEvents_unaffected (request : Payload) (testnetOrigin : String) (observedAt : Moment) :
    (authEvents request testnetOrigin observedAt).Unaffected (collectionScript key)
      (SiteAlike K ys) :=
  (Prog.Unaffected.ofExcept _).bind fun _ => emit_unaffected hK hkey _ _ _ _

theorem shadowEvents_unaffected (self : ProtectedCampaignRuntimeAdapter) (snapshot : Payload)
    (strategyDecision : String) (observedAt : Moment) :
    (self.shadowEvents snapshot strategyDecision observedAt).Unaffected (collectionScript key)
      (SiteAlike K ys) := by
  refine (Prog.Unaffected.ofExcept _).bind fun _ => (Prog.Unaffected.ofExcept _).bind fun _ => ?_
  exact (Prog.Unaffected.ofExcept _).bind fun _ => emit_unaffected hK hkey _ _ _ _

theorem killSwitchEvents_unaffected (halted : ProtectedCampaignRuntimeAdapter)
    (snapshot : Payload) (observedAt : Moment) :
    (killSwitchEvents halted snapshot observedAt).Unaffected (collectionScript key)
      (SiteAlike K ys) := by
  have hrefused : ∀ r, (refused r).Unaffected (collectionScript key) (SiteAlike K ys) := by
    intro r
    unfold refused
    split
    · exact .ret _
    · exact .ret _
    · exact .raise _
  refine ((shadowEvents_unaffected hK hkey _ _ _ _).attempt.bind hrefused).bind fun _ => ?_
  exact (Prog.Unaffected.ofExcept _).bind fun _ => emit_unaffected hK hkey _ _ _ _

theorem emitTrades_unaffected (datasetHash : String) (cutoff : ℤ) (trades : List BacktestTrade)
    (index : ℕ) : (emitTrades datasetHash cutoff index trades).Unaffected (collectionScript key)
      (SiteAlike K ys) := by
  induction trades generalizing index with
  | nil => exact .ret _
  | cons trade trades ih =>
    refine (Prog.Unaffected.ofExcept _).bind fun checked => ?_
    exact (emit_unaffected hK hkey _ _ _ _).bind fun _ => ih _

/-- **What a method does with the collection** is not affected by audit records, unless it is a
reconciliation that could pair one of them. -/
theorem work_unaffected (self : ProtectedCampaignRuntimeAdapter) (method : Method)
    (hpairs : ∀ observedAt n, method = .recordLiveShadowReconciliation observedAt n →
      ∀ e ∈ ys, ¬ Pairable e) :
    (method.work self).script.Unaffected (collectionScript key) (SiteAlike K ys) := by
  have hemit := @emit_unaffected _ _ K ys key hK hkey
  have hcheck : ∀ x, (check x).Unaffected (collectionScript key) (SiteAlike K ys) :=
    fun x => Prog.Unaffected.ofExcept (S := CollectionSig) x
  cases method with
  | recordPrivateMessage message observedAt =>
    refine map_unaffected _ ?_
    unfold recordPrivateMessage
    split
    · exact .raise _
    · exact privateEvents_unaffected hK hkey _ _ _
  | recordPrivateAuthRequest request testnetOrigin observedAt =>
    exact map_unaffected _ (authEvents_unaffected hK hkey _ _ _)
  | recordPrivateReconnect request testnetOrigin observedAt =>
    refine map_unaffected _ ((hcheck _).bind fun _ => ?_)
    exact (authEvents_unaffected hK hkey _ _ _).bind fun _ => hemit _ _ _ _
  | recordPrivateRestReconciliation restBalances observedAt =>
    refine map_unaffected _ ((hcheck _).bind fun _ => (hcheck _).bind fun _ => ?_)
    exact (hcheck _).bind fun _ => hemit _ _ _ _
  | recordPaperQuote snapshot marketRegime observedAt longIntent latencyMs =>
    refine map_unaffected _ ?_
    unfold recordPaperQuote
    split
    · exact .raise _
    · exact (Prog.Unaffected.ofExcept _).bind fun _ => (hemit _ _ _ _).bind fun _ => .ret _
  | recordLiveShadowObservation snapshot strategyDecision observedAt =>
    exact map_unaffected _ (shadowEvents_unaffected hK hkey _ _ _ _)
  | recordLiveShadowReconciliation observedAt minimumPairs =>
    refine map_unaffected _ ((hcheck _).bind fun _ => load_unaffected hK hkey ?_ fun rows => ?_)
    · intro now file file' rows rows' h
      rw [pairing_eq h.rowsAlike (hpairs observedAt minimumPairs rfl)]
    · exact (hcheck _).bind fun _ => (hcheck _).bind fun _ => (hemit _ _ _ _).bind fun _ => .ret _
  | testLiveShadowKillSwitch snapshot observedAt =>
    exact map_unaffected _ (killSwitchEvents_unaffected hK hkey _ _ _)
  | runIsolatedLiveShadowKillSwitchDrill snapshot observedAt =>
    exact map_unaffected _ (killSwitchEvents_unaffected hK hkey _ _ _)
  | recordProfitabilityBacktest manifest verified trades oosStart observedAt =>
    refine map_unaffected _ (load_unaffected hK hkey ?_ fun rows => ?_)
    · intro now file file' rows rows' h
      rw [candidateOf_eq h]
    · refine (Prog.Unaffected.ofExcept _).bind fun _ => (hcheck _).bind fun _ => ?_
      refine (Prog.Unaffected.ofExcept _).bind fun cutoff => ?_
      refine (emitTrades_unaffected hK hkey _ _ _ _).bind fun _ => ?_
      exact (onlyIf_unaffected (hemit _ _ _ _)).bind fun _ => .ret _

end

/-! ## 3. Calls -/

variable [AdapterRuntime]

/-- The two runs have reached these states. -/
structure State.Alike (K : Set String) (s p : State) : Prop where
  adapter : s.adapter = p.adapter
  key : s.adapter.telemetryKey ∈ K
  file : Campaign.Alike K s.audits s.file p.file

variable [Statistics] {s p : State}

/-- **An operation answers alike in both runs**, if it is harmless. -/
theorem State.Alike.run (hK : K.InjOn keyDigest) (h : State.Alike K s p) {op : Operation}
    (hclock : ∀ e ∈ s.audits, op.NotBefore e.recordedAt)
    (hpairs : op.isReconciliation = true → ∀ e ∈ s.audits, ¬ Pairable e)
    (hkeys : ∀ key ∈ op.keys, key ∈ K) :
    (op.run s).1 = (op.run p).1 ∧ State.Alike K (op.run s).2 (op.run p).2 := by
  cases op with
  | adapter method clock =>
    have hsite : SiteAlike K s.audits ⟨s.file, clock⟩ ⟨p.file, clock⟩ :=
      ⟨rfl, fun n e he => hclock e he n, h.file⟩
    have hwork := work_unaffected hK h.key s.adapter method
      (fun _ _ heq => hpairs (by simp [heq, Operation.isReconciliation])) _ _ hsite
    simp only [Operation.run, ← h.adapter]
    exact ⟨hwork.1, rfl, by rw [telemetryKey_work]; exact h.key, hwork.2.file⟩
  | appendAttestedRuntimeEvent kind payload observedAt producer telemetryKey now =>
    have hkey : ∀ key ∈ some telemetryKey, key ∈ K := by
      simpa [Operation.keys] using hkeys
    have happend := append_alike (e := attested kind payload observedAt producer telemetryKey now)
      hK h.file hkey hkey (by simp [attested]) hclock
    rw [← appendAttestedRuntimeEvent_eq, ← appendAttestedRuntimeEvent_eq] at happend
    exact ⟨happend.1.map_eq fun _ _ _ => rfl, h.adapter, h.key, happend.2⟩
  | appendCollectionEvent kind payload observedAt telemetryKey now =>
    have hkey : ∀ key ∈ telemetryKey, key ∈ K := by
      simpa [Operation.keys] using hkeys
    have happend := append_alike (e := Entry.audit kind payload observedAt now) hK h.file hkey
      (by simp [Entry.audit]) (fun _ => rfl) hclock
    rw [← appendCollectionEvent_eq, ← appendCollectionEvent_eq] at happend
    exact ⟨happend.1.map_eq fun _ _ _ => rfl, h.adapter, h.key, happend.2⟩
  | deriveCollectionMetrics expected telemetryKey now =>
    have hkey : ∀ key ∈ telemetryKey, key ∈ K := by
      simpa [Operation.keys] using hkeys
    have hsame : Agree Eq
        (loadCollection s.file telemetryKey now expected >>= deriveCollectionMetrics)
        (loadCollection p.file telemetryKey now expected >>= deriveCollectionMetrics) := by
      refine (loadCollection_alike expected hK h.file hkey hclock).bind fun rows rows' _ _ h => ?_
      rw [deriveCollectionMetrics_eq h.rowsAlike]
      exact Agree.refl _ fun _ _ => rfl
    exact ⟨hsame.map_eq fun _ _ heq => congrArg Value.metrics heq, h.adapter, h.key, h.file⟩

theorem audits_run (op : Operation) :
    (op.run s).2.audits = s.audits := by
  cases op <;> rfl

end Comparison

namespace OnDisk

open Python TextFile

/-! ## 4. Runs over the file on the disk -/

/-- The operations with the clock readings they take. -/
inductive Operation
  | adapter (method : Method) (clock : ℕ → ℤ)
  | append (a : Append) (now : ℤ)
  | deriveCollectionMetrics (expected : Expected) (telemetryKey : Option String) (now : ℤ)

inductive Call
  | operation (op : Operation)
  | audit (kind : String) (payload : Dict) (observedAt : ℤ) (telemetryKey : Option String)
      (now : ℤ)

/-- Is this an operation of both runs? -/
def Call.isOperation : Call → Bool
  | .operation _ => true
  | .audit .. => false

/-- An audit record that was written, and what it was written behind. -/
structure Insertion where
  append : Append
  now : ℤ
  behind : Option Line

structure State where
  adapter : ProtectedCampaignRuntimeAdapter
  file : TextFile
  audits : List Insertion := []

structure Site where
  file : TextFile
  clock : ℕ → ℤ

def Site.tick (site : Site) (file : TextFile) : Site := ⟨file, fun n => site.clock (n + 1)⟩

section Runs

variable [PyRuntime] [CollectionEncoding] [PythonEncoding]

/-- The operations of the adapter with its key.  Every write is done. -/
def script (telemetryKey : String) : Script CollectionSig Site
  | .emit kind payload observedAt producer, site =>
    let (answer, file) := appendAttestedRuntimeEvent .done site.file kind (fieldsToValue payload)
      observedAt producer telemetryKey (site.clock 0)
    ((answer.map fun _ => () : Except Exc Unit), site.tick file)
  | .load, site =>
    (loadCollection site.file.view (some telemetryKey) (site.clock 0), site.tick site.file)

/-- `append_collection_event` for the audit. -/
def State.audit (s : State) (kind : String) (payload : Dict) (observedAt : ℤ)
    (telemetryKey : Option String) (now : ℤ) : Except Exc Value × State :=
  let a : Append := .collection kind payload observedAt telemetryKey
  match a.run .done s.file now with
  | (.ok _, file) =>
    (.ok .nothing, { s with file, audits := s.audits ++ [⟨a, now, s.file.rest⟩] })
  | (.error e, file) => (.error e, { s with file })

variable [AdapterRuntime] [Statistics]

def Operation.run (s : State) : Operation → Except Exc Value × State
  | .adapter method clock =>
    let work := method.work s.adapter
    let played := work.script.play (script s.adapter.telemetryKey) ⟨s.file, clock⟩
    (played.1, { s with adapter := work.adapter, file := played.2.file })
  | .append a now =>
    let (answer, file) := a.run .done s.file now
    (answer.map fun _ => .nothing, { s with file })
  | .deriveCollectionMetrics expected telemetryKey now =>
    ((loadCollection s.file.view telemetryKey now expected >>=
      Campaign.deriveCollectionMetrics).map .metrics, s)

def act : Object State Call Answer := fun s call =>
  let (answer, left) := match call with
    | .operation op => op.run s
    | .audit kind payload observedAt telemetryKey now =>
      s.audit kind payload observedAt telemetryKey now
  (⟨answer, attestedEvents left.file.view⟩, left)

end Runs

/-- None of its clock readings is before `t`. -/
def Operation.NotBefore (t : ℤ) : Operation → Prop
  | .adapter _ clock => ∀ n, t ≤ clock n
  | .append _ now => t ≤ now
  | .deriveCollectionMetrics _ _ now => t ≤ now

/-- The keys it is given. -/
def Operation.keys : Operation → List String
  | .adapter .. => []
  | .append a _ => a.loadKey.toList
  | .deriveCollectionMetrics _ telemetryKey _ => telemetryKey.toList

def Operation.isReconciliation : Operation → Bool
  | .adapter (.recordLiveShadowReconciliation ..) _ => true
  | _ => false

/-- What it appends is JSON. -/
def Operation.AppendsPlain : Operation → Prop
  | .append a _ => Plain a.payload
  | _ => True

/-- A call is given keys of `K`, if it is an operation. -/
def Call.UsesKeys (K : Set String) : Call → Prop
  | .operation op => ∀ key ∈ op.keys, key ∈ K
  | .audit .. => True

/-- The record was written behind a newline, and its payload is JSON. -/
def Insertion.Whole (x : Insertion) : Prop := x.behind = none ∧ Plain x.append.payload

/-- It is the record of the entry. -/
def Insertion.Of (x : Insertion) (e : Entry) : Prop :=
  ∃ p, fieldsToValue p = x.append.payload ∧ e = x.append.entry p x.now

/-- Every audit record in the file is whole, the clock of the operation is not behind it, and with
one in the file the operation appends JSON only; and if it is a reconciliation, none of them is
one that it could pair. -/
def Harmless [PyRuntime] (s : State) : Call → Prop
  | .operation op => (∀ x ∈ s.audits, x.Whole ∧ op.NotBefore x.now ∧ op.AppendsPlain) ∧
      (op.isReconciliation = true → ∀ x ∈ s.audits, ∀ e, x.Of e → ¬ Pairable e)
  | .audit .. => True

/-! ## 5. Files that end with a newline -/

/-- The operation over lines, if `p` is what it appends. -/
def Operation.overLines (p : Payload) : Operation → Campaign.Operation
  | .adapter method clock => .adapter method clock
  | .append (.collection kind _ observedAt telemetryKey) now =>
    .appendCollectionEvent kind p observedAt telemetryKey now
  | .append (.attested kind _ observedAt producer telemetryKey) now =>
    .appendAttestedRuntimeEvent kind p observedAt producer telemetryKey now
  | .deriveCollectionMetrics expected telemetryKey now =>
    .deriveCollectionMetrics expected telemetryKey now

/-- It appends `p`, if it appends. -/
def Operation.Appends (p : Payload) : Operation → Prop
  | .append a _ => fieldsToValue p = a.payload
  | _ => True

variable {p : Payload} {op : Operation} {lines : File} {key : String} {t : ℤ}

theorem Operation.AppendsPlain.exists (h : op.AppendsPlain) : ∃ p, op.Appends p := by
  cases op with
  | append a now => exact h
  | adapter method clock => exact ⟨[], trivial⟩
  | deriveCollectionMetrics expected telemetryKey now => exact ⟨[], trivial⟩

theorem notBefore_overLines : (op.overLines p).NotBefore t ↔ op.NotBefore t := by
  cases op with
  | append a now => cases a <;> rfl
  | _ => rfl

theorem keys_overLines : (op.overLines p).keys = op.keys := by
  cases op with
  | append a now => cases a <;> rfl
  | _ => rfl

theorem isReconciliation_overLines :
    (op.overLines p).isReconciliation = op.isReconciliation := by
  cases op with
  | append a now => cases a <;> rfl
  | adapter method clock => cases method <;> rfl
  | _ => rfl

theorem view_lines (lines : File) : TextFile.view ⟨lines, none⟩ = lines := List.append_nil lines

theorem map_ofJson {β : Type} (x : Except Exc Payload) (b : β) :
    (ofJson <$> x).map (fun _ => b) = x.map fun _ => b := by
  cases x <;> rfl

section Lines

variable [PyRuntime] [CollectionEncoding] [PythonEncoding]

theorem script_lines (o : CollectionSig.Op) (clock : ℕ → ℤ) :
    script key o ⟨⟨lines, none⟩, clock⟩ =
      ((collectionScript key o ⟨lines, clock⟩).1,
        ⟨⟨(collectionScript key o ⟨lines, clock⟩).2.file, none⟩,
          (collectionScript key o ⟨lines, clock⟩).2.clock⟩) := by
  cases o with
  | load => simp only [script, collectionScript, view_lines, Site.tick, Campaign.Site.tick]
  | emit kind payload observedAt producer =>
    have happend : (Append.attested kind (fieldsToValue payload) observedAt producer key).run .done
        ⟨lines, none⟩ (clock 0) = _ := append_plain (p := payload) lines rfl
    rw [Append.run] at happend
    simp only [script, collectionScript, happend, map_ofJson, appendAttestedRuntimeEvent_eq]
    rfl

/-- **A program of the adapter** does to a file that ends with a newline what it does to the
lines. -/
theorem play_lines {α : Type} (prog : Prog CollectionSig α) (clock : ℕ → ℤ) :
    prog.play (script key) ⟨⟨lines, none⟩, clock⟩ =
      ((prog.play (collectionScript key) ⟨lines, clock⟩).1,
        ⟨⟨(prog.play (collectionScript key) ⟨lines, clock⟩).2.file, none⟩,
          (prog.play (collectionScript key) ⟨lines, clock⟩).2.clock⟩) := by
  induction prog generalizing lines clock with
  | ret a => rfl
  | raise e => rfl
  | op o k ih =>
    rw [Prog.play, Prog.play, script_lines]
    exact ih _ _

variable [AdapterRuntime] [Statistics] {adapter : ProtectedCampaignRuntimeAdapter}
  {xs : List Insertion} {es : List Entry}

variable (es) in
/-- So does an operation. -/
theorem run_lines (h : op.Appends p) :
    op.run ⟨adapter, ⟨lines, none⟩, xs⟩ =
      (((op.overLines p).run ⟨adapter, lines, es⟩).1,
        ⟨((op.overLines p).run ⟨adapter, lines, es⟩).2.adapter,
          ⟨((op.overLines p).run ⟨adapter, lines, es⟩).2.file, none⟩, xs⟩) := by
  cases op with
  | adapter method clock =>
    simp only [Operation.run, Operation.overLines, Campaign.Operation.run, play_lines]
  | append a now =>
    have happend : a.run .done ⟨lines, none⟩ now = _ := append_plain lines h
    simp only [Operation.run, happend, map_ofJson]
    cases a with
    | collection kind payload observedAt telemetryKey =>
      simp only [Operation.overLines, Campaign.Operation.run, appendCollectionEvent_eq, outcome]
      rfl
    | attested kind payload observedAt producer telemetryKey =>
      simp only [Operation.overLines, Campaign.Operation.run, appendAttestedRuntimeEvent_eq,
        outcome]
      rfl
  | deriveCollectionMetrics expected telemetryKey now =>
    simp only [Operation.run, Operation.overLines, Campaign.Operation.run, view_lines]

end Lines

/-! ## 6. The two runs -/

section Comparison

variable [PyRuntime] [CollectionEncoding] [PythonEncoding] {K : Set String} {s p : State}

/-- **The two runs have reached these states.**  As long as every audit record is whole, there is
none and the files are the same, or both end with a newline and their lines are alike. -/
structure State.Alike (K : Set String) (s p : State) : Prop where
  adapter : s.adapter = p.adapter
  key : s.adapter.telemetryKey ∈ K
  file : (∀ x ∈ s.audits, x.Whole) → s.audits = [] ∧ s.file = p.file ∨
    ∃ lines lines' es, s.file = ⟨lines, none⟩ ∧ p.file = ⟨lines', none⟩ ∧ s.audits ≠ [] ∧
      (∀ e ∈ es, ∃ x ∈ s.audits, x.Of e) ∧ Campaign.Alike K es lines lines'

/-- A write that is done leaves the file alone if its append raises. -/
theorem run_eq_error {a : Append} {file left : TextFile} {now : ℤ} {e : Exc}
    (h : a.run .done file now = (.error e, left)) : left = file := by
  by_cases hready : a.Ready file now
  · obtain ⟨hashed, line, hrecord⟩ := hready
    rw [run_of_ready hrecord] at h
    cases h
  · obtain ⟨e', hrun⟩ := run_of_not_ready .done hready
    rw [hrun] at h
    cases h
    rfl

/-- An audit record changes nothing for the other run. -/
theorem State.Alike.audit (h : State.Alike K s p) (kind : String) (payload : Dict)
    (observedAt : ℤ) (telemetryKey : Option String) (now : ℤ) :
    State.Alike K (s.audit kind payload observedAt telemetryKey now).2 p := by
  rcases hrun : (Append.collection kind payload observedAt telemetryKey).run .done s.file now with
    ⟨exc | record, left⟩
  · obtain rfl := run_eq_error hrun
    simp only [State.audit, hrun]
    exact ⟨h.adapter, h.key, h.file⟩
  simp only [State.audit, hrun]
  refine ⟨h.adapter, h.key, fun hwhole => .inr ?_⟩
  obtain ⟨hbefore, hlast⟩ := List.forall_mem_append.mp hwhole
  obtain ⟨hbehind, q, hq⟩ := hlast _ (List.mem_singleton_self _)
  obtain ⟨lines, lines', es, hs, hp, hes, halike⟩ : ∃ lines lines' es, s.file = ⟨lines, none⟩ ∧
      p.file = ⟨lines', none⟩ ∧ (∀ e ∈ es, ∃ x ∈ s.audits, x.Of e) ∧
        Campaign.Alike K es lines lines' := by
    rcases h.file hbefore with ⟨-, hsame⟩ | ⟨lines, lines', es, hs, hp, -, hes, halike⟩
    · have hs : s.file = ⟨s.file.lines, none⟩ := by rw [← hbehind]
      exact ⟨_, _, [], hs, hsame ▸ hs, by simp, .same _⟩
    · exact ⟨lines, lines', es, hs, hp, hes, halike⟩
  have hwritten : (Append.collection kind payload observedAt telemetryKey).run .done ⟨lines, none⟩
      now = (ofJson <$> ((Entry.audit kind q observedAt now).append lines telemetryKey).1,
        ⟨((Entry.audit kind q observedAt now).append lines telemetryKey).2, none⟩) :=
    append_plain lines hq
  rw [hs, hwritten] at hrun
  have happend := append_audit (e := Entry.audit kind q observedAt now) telemetryKey halike rfl rfl
  rcases happend with ⟨exc, heq⟩ | ⟨r, left', heq, halike'⟩
  · rw [heq] at hrun
    cases hrun
  · rw [heq] at hrun
    obtain ⟨-, rfl⟩ := Prod.mk.inj hrun
    refine ⟨left', lines', _, rfl, hp, by simp, ?_, halike'⟩
    intro e he
    rcases List.mem_append.mp he with he | he
    · obtain ⟨x, hx, hof⟩ := hes e he
      exact ⟨x, List.mem_append_left _ hx, hof⟩
    · obtain rfl := List.mem_singleton.mp he
      exact ⟨_, List.mem_append_right _ (List.mem_singleton_self _), q, hq, rfl⟩

omit [PythonEncoding] in
/-- **The same attested events** are in both files. -/
theorem State.Alike.attested (h : State.Alike K s p) (hwhole : ∀ x ∈ s.audits, x.Whole) :
    attestedEvents s.file.view = attestedEvents p.file.view := by
  rcases h.file hwhole with ⟨-, hsame⟩ | ⟨lines, lines', es, hs, hp, -, -, halike⟩
  · rw [hsame]
  · rw [hs, hp, view_lines, view_lines, attestedEvents_eq halike]

variable [AdapterRuntime] [Statistics]

theorem audits_run : (op.run s).2.audits = s.audits := by
  cases op <;> rfl

theorem telemetryKey_run (op : Operation) (s : State) :
    (op.run s).2.adapter.telemetryKey = s.adapter.telemetryKey := by
  cases op with
  | adapter method clock => exact telemetryKey_work _ _
  | _ => rfl

/-- An operation does not look at what it is told of the audit records. -/
theorem run_forget (s : State) (xs : List Insertion) (op : Operation) :
    op.run { s with audits := xs } = ((op.run s).1, { (op.run s).2 with audits := xs }) := by
  cases op <;> rfl

/-- **An operation answers alike in both runs**, if it is harmless. -/
theorem State.Alike.run (hK : K.InjOn keyDigest) (h : State.Alike K s p)
    (hharmless : Harmless s (.operation op)) (hkeys : Call.UsesKeys K (.operation op)) :
    (op.run s).1 = (op.run p).1 ∧ State.Alike K (op.run s).2 (op.run p).2 := by
  obtain ⟨haudits, hpairs⟩ := hharmless
  rcases h.file fun x hx => (haudits x hx).1 with
    ⟨hnone, hsame⟩ | ⟨lines, lines', es, hs, hp, hsome, hes, halike⟩
  · have hp : p = { s with audits := p.audits } := by
      rw [hsame, h.adapter]
    have hrun : op.run p = ((op.run s).1, { (op.run s).2 with audits := p.audits }) := by
      rw [hp, run_forget]
    rw [hrun]
    exact ⟨rfl, rfl, telemetryKey_run op s ▸ h.key, fun _ => .inl ⟨audits_run.trans hnone, rfl⟩⟩
  · obtain ⟨x, hx⟩ := List.exists_mem_of_ne_nil _ hsome
    obtain ⟨q, hq⟩ := (haudits x hx).2.2.exists
    have hlines : Campaign.State.Alike K ⟨s.adapter, lines, es⟩ ⟨p.adapter, lines', []⟩ :=
      ⟨h.adapter, h.key, halike⟩
    have hclock : ∀ e ∈ es, (op.overLines q).NotBefore e.recordedAt := by
      intro e he
      obtain ⟨x, hx, q', -, rfl⟩ := hes e he
      rw [Append.entry_recordedAt, notBefore_overLines]
      exact (haudits x hx).2.1
    have hunpaired : (op.overLines q).isReconciliation = true → ∀ e ∈ es, ¬ Pairable e := by
      intro hreconciles e he
      obtain ⟨x, hx, hof⟩ := hes e he
      exact hpairs (isReconciliation_overLines.symm.trans hreconciles) x hx e hof
    obtain ⟨hanswer, hleft⟩ := hlines.run hK hclock hunpaired (by rwa [keys_overLines])
    obtain ⟨adapter, file, xs⟩ := s
    obtain ⟨adapter', file', xs'⟩ := p
    obtain rfl : file = ⟨lines, none⟩ := hs
    obtain rfl : file' = ⟨lines', none⟩ := hp
    rw [run_lines es hq, run_lines [] hq]
    have hfile := hleft.file
    rw [Campaign.audits_run] at hfile
    exact ⟨hanswer, hleft.adapter, hleft.key, fun _ => .inr
      ⟨_, _, es, rfl, rfl, hsome, hes, hfile⟩⟩

/-- **The runs unwind.** -/
theorem act_unwinding (hK : K.InjOn keyDigest) :
    Unwinding act Call.isOperation (State.Alike K) fun s _ k => Harmless s k ∧ k.UsesKeys K where
  foreign := by
    intro s p k h hk
    cases k with
    | operation op => cases hk
    | audit kind payload observedAt telemetryKey now => exact h.audit _ _ _ _ _
  answer := by
    intro s p k h hk hc
    cases k with
    | audit => cases hk
    | operation op =>
      obtain ⟨hsame, halike⟩ := h.run hK hc.1 hc.2
      have hattested := halike.attested fun x hx => (hc.1.1 x (audits_run ▸ hx)).1
      simp only [act, hsame, hattested]
  next := by
    intro s p k h hk hc
    cases k with
    | audit => cases hk
    | operation op => exact (h.run hK hc.1 hc.2).2

/-- **Audit records never reach acceptance**, as long as every operation is harmless: the
operations of both runs answer alike and record the same attested events. -/
theorem audits_unseen_of_harmless (hK : K.InjOn keyDigest) (hkey : s.adapter.telemetryKey ∈ K)
    (hstart : s.audits = []) {calls : List Call} (hkeys : ∀ k ∈ calls, k.UsesKeys K)
    (h : Undisturbed act Call.isOperation (fun s _ k => Harmless s k) s s calls) :
    answersTo act Call.isOperation s calls =
        answersTo act Call.isOperation s (calls.filter Call.isOperation) ∧
      ((∀ x ∈ (leaves act s calls).audits, x.Whole) →
        attestedEvents (leaves act s calls).file.view =
          attestedEvents (leaves act s (calls.filter Call.isOperation)).file.view) := by
  have hsame : State.Alike K s s := ⟨rfl, hkey, fun _ => .inl ⟨hstart, rfl⟩⟩
  have hcalls := h.and hkeys
  exact ⟨(act_unwinding hK).answers_eq hsame hcalls,
    ((act_unwinding hK).leaves hsame hcalls).attested⟩

end Comparison

/-! ## 7. Runs over lines -/

section Lines

variable [PyRuntime] [CollectionEncoding] [PythonEncoding] [AdapterRuntime] [Statistics]
  {adapter : ProtectedCampaignRuntimeAdapter} {xs : List Insertion} {es : List Entry}

/-- The call over lines is this one, with the JSON of what it appends. -/
inductive Call.OverLines : Call → Campaign.Call → Prop
  | operation (op : Operation) (p : Payload) (h : op.Appends p) :
      OverLines (.operation op) (.operation (op.overLines p))
  | audit (kind : String) (p : Payload) (observedAt : ℤ) (telemetryKey : Option String) (now : ℤ) :
      OverLines (.audit kind (fieldsToValue p) observedAt telemetryKey now)
        (.audit kind p observedAt telemetryKey now)

omit [AdapterRuntime] [Statistics] in
variable (es) in
theorem audit_lines (kind : String) (p : Payload) (observedAt : ℤ)
    (telemetryKey : Option String) (now : ℤ) :
    State.audit ⟨adapter, ⟨lines, none⟩, xs⟩ kind (fieldsToValue p) observedAt telemetryKey now =
      let left := Campaign.audit ⟨adapter, lines, es⟩ kind p observedAt telemetryKey now
      (left.1, ⟨left.2.adapter, ⟨left.2.file, none⟩, xs ++ left.1.toOption.toList.map fun _ =>
        ⟨.collection kind (fieldsToValue p) observedAt telemetryKey, now, none⟩⟩) := by
  have hwritten : (Append.collection kind (fieldsToValue p) observedAt telemetryKey).run .done
      ⟨lines, none⟩ now = (ofJson <$> ((Entry.audit kind p observedAt now).append lines
        telemetryKey).1,
        ⟨((Entry.audit kind p observedAt now).append lines telemetryKey).2, none⟩) :=
    append_plain lines rfl
  simp only [State.audit, Campaign.audit, hwritten, appendCollectionEvent_eq]
  rcases (Entry.audit kind p observedAt now).append lines telemetryKey with ⟨e | r, left⟩
  · exact congrArg (Prod.mk _) (congrArg (State.mk _ _) (List.append_nil xs).symm)
  · rfl

/-- **Plain calls** on a file that ends with a newline answer as over its lines. -/
theorem answers_lines {calls : List Call} {calls' : List Campaign.Call}
    (h : List.Forall₂ Call.OverLines calls calls') :
    answersTo act Call.isOperation ⟨adapter, ⟨lines, none⟩, xs⟩ calls =
      answersTo Campaign.act Campaign.Call.isOperation ⟨adapter, lines, es⟩ calls' := by
  induction h generalizing adapter lines xs es with
  | nil => rfl
  | @cons call call' calls calls' hcall _ ih =>
    cases hcall with
    | operation op p hp =>
      have hrun : op.run ⟨adapter, ⟨lines, none⟩, xs⟩ = _ := run_lines es hp
      rw [answersTo_cons rfl, answersTo_cons rfl]
      simp only [act, Campaign.act, hrun, view_lines]
      exact congrArg _ ih
    | audit kind p observedAt telemetryKey now =>
      have hrun : State.audit ⟨adapter, ⟨lines, none⟩, xs⟩ _ _ _ _ _ = _ :=
        audit_lines es kind p observedAt telemetryKey now
      rw [answersTo_cons_foreign rfl, answersTo_cons_foreign rfl]
      simp only [act, Campaign.act, hrun]
      exact ih

end Lines

/-! ## 8. Two runs -/

section Witnesses

/-- Every digest is the same: no answer of the two runs below depends on one. -/
@[reducible] def constantEncoding : CollectionEncoding :=
  { strokeEncoding with
    recordDigest := fun _ => "0"
    hmac := fun _ _ => "0"
    hmac_ascii := fun _ _ => by decide }

@[reducible] def constantPython : @PythonEncoding plainRuntime constantEncoding :=
  letI := plainRuntime
  letI := constantEncoding
  { strValue := @PythonEncoding.strValue plainRuntime bytesEncoding plainPython
    strKey := fun _ => "None"
    sha256 := fun _ => "0"
    hmacSha256 := fun _ _ => "0"
    strValue_toValue := @PythonEncoding.strValue_toValue plainRuntime bytesEncoding plainPython
    recordDigest_eq := fun _ => rfl
    hmac_eq := fun _ => rfl }

attribute [local instance] plainRuntime constantEncoding constantPython plainAdapterRuntime
  plainStatistics

def freshFile : File := [.record (headerRecord candidate topology topology 0)]

example : initializeCollection candidate topology topology 0 = .ok freshFile := rfl

/-- A new adapter, and a collection that has been initialized. -/
def freshCampaign : State where
  adapter := { telemetryKey := "0123456789012345678901234567890123456789" }
  file := ⟨freshFile, none⟩

def freshLines : Campaign.State := ⟨freshCampaign.adapter, freshFile, []⟩

def reconciliation : Operation :=
  .adapter (.recordLiveShadowReconciliation ⟨3, true⟩ 1) fun _ => 3

def heartbeat : Append := .collection "private_event" (fieldsToValue []) 1 none

/-- A heartbeat for the audit, before a reconciliation and the derivation of the metrics. -/
def heartbeatCalls : List Call :=
  [.audit "private_event" (fieldsToValue []) 1 none 1, .operation reconciliation,
    .operation (.deriveCollectionMetrics {} none 4)]

theorem audits_heartbeat :
    (freshCampaign.audit "private_event" (fieldsToValue []) 1 none 1).2.audits =
      [⟨heartbeat, 1, none⟩] := by
  have hanswer : (Campaign.audit freshLines "private_event" [] 1 none 1).1.toOption.toList =
      [.nothing] := rfl
  rw [freshCampaign, audit_lines []]
  exact congrArg (List.map fun _ => (⟨heartbeat, 1, none⟩ : Insertion)) hanswer

/-- It is whole, older than these clocks, and no observation. -/
theorem heartbeat_harmless {op : Operation} {left : State}
    (hleft : left.audits = [⟨heartbeat, 1, none⟩]) (hclock : op.NotBefore 1)
    (hplain : op.AppendsPlain) : Harmless left (.operation op) := by
  have hall : ∀ x ∈ left.audits, x = ⟨heartbeat, 1, none⟩ := by simp [hleft]
  refine ⟨fun x hx => ?_, fun _ x hx e he => ?_⟩
  · rw [hall x hx]
    exact ⟨⟨rfl, [], rfl⟩, hclock, hplain⟩
  · obtain ⟨p, -, rfl⟩ := he
    rw [hall x hx]
    simp [Pairable, heartbeat, Append.entry, Entry.audit]

theorem audits_unseen_of_harmless_heartbeat :
    (freshCampaign.audit "private_event" (fieldsToValue []) 1 none 1).2.audits.length = 1 ∧
      answersTo act Call.isOperation freshCampaign heartbeatCalls =
        answersTo act Call.isOperation freshCampaign (heartbeatCalls.filter Call.isOperation) ∧
      attestedEvents (leaves act freshCampaign heartbeatCalls).file.view =
        attestedEvents (leaves act freshCampaign
          (heartbeatCalls.filter Call.isOperation)).file.view := by
  have hrest : (reconciliation.run (freshCampaign.audit "private_event" (fieldsToValue []) 1 none
      1).2).2.audits = [⟨heartbeat, 1, none⟩] := by
    rw [audits_run, audits_heartbeat]
  have hlast : (leaves act freshCampaign heartbeatCalls).audits = [⟨heartbeat, 1, none⟩] := by
    simp only [heartbeatCalls, leaves_cons, leaves_nil, act]
    rw [audits_run, hrest]
  have hend : ∀ x ∈ (leaves act freshCampaign heartbeatCalls).audits, x.Whole := by
    rw [hlast]
    exact List.forall_mem_singleton.mpr ⟨rfl, [], rfl⟩
  refine ⟨by rw [audits_heartbeat]; rfl, ?_⟩
  have hkeys : ∀ k ∈ heartbeatCalls, k.UsesKeys {freshCampaign.adapter.telemetryKey} := by
    simp [heartbeatCalls, reconciliation, Call.UsesKeys, Operation.keys]
  have hharmless : Undisturbed act Call.isOperation (fun s _ k => Harmless s k) freshCampaign
      freshCampaign heartbeatCalls := by
    rw [heartbeatCalls, undisturbed_cons_foreign rfl, undisturbed_cons rfl, undisturbed_cons rfl]
    simp only [act]
    refine ⟨heartbeat_harmless audits_heartbeat (fun _ => ?_) trivial,
      heartbeat_harmless hrest ?_ trivial, trivial⟩
    · exact (by decide : (1 : ℤ) ≤ 3)
    · exact (by decide : (1 : ℤ) ≤ 4)
  obtain ⟨hanswers, hattested⟩ := audits_unseen_of_harmless
    (Set.injOn_singleton _ freshCampaign.adapter.telemetryKey) rfl rfl hkeys hharmless
  exact ⟨hanswers, hattested hend⟩

/-- A sample and an observation with one id. -/
def pairedSample : Payload :=
  [("sample_id", .str "s-1"), ("observation_id", .str "o-1"), ("symbol", .str "BTCUSDT"),
    ("decision", .str "HOLD"), ("market_regime", .str "RANGE"),
    ("market_data_origin", .str "REAL"), ("execution_divergence_bps", .int 0)]

def pairedObservation : Payload :=
  [("observation_id", .str "o-1"), ("symbol", .str "BTCUSDT"),
    ("strategy_decision", .str "HOLD"), ("market_data_origin", .str "REAL")]

def pairedCalls : List Call :=
  [.audit "paper_sample" (fieldsToValue pairedSample) 1 none 1,
    .audit "live_shadow_observation" (fieldsToValue pairedObservation) 2 none 2,
    .operation reconciliation]

/-- The same over the lines. -/
def pairedLines : List Campaign.Call :=
  [.audit "paper_sample" pairedSample 1 none 1,
    .audit "live_shadow_observation" pairedObservation 2 none 2,
    .operation (reconciliation.overLines [])]

/-- **A reconciliation of audit records**: it passes and emits an attested event.  Without them
it is refused. -/
theorem audits_seen :
    answersTo act Call.isOperation freshCampaign pairedCalls ≠
      answersTo act Call.isOperation freshCampaign (pairedCalls.filter Call.isOperation) := by
  obtain ⟨hwith, hwithout⟩ :
      (answersTo Campaign.act Campaign.Call.isOperation freshLines pairedLines).map
        (fun answer => (answer.outcome.isOk, answer.attested.length)) = [(true, 1)] ∧
      (answersTo Campaign.act Campaign.Call.isOperation freshLines
          [.operation (reconciliation.overLines [])]).map
        (fun answer => (answer.outcome.isOk, answer.attested.length)) = [(false, 0)] := by
    decide
  have hreconcile : Call.OverLines (.operation reconciliation)
      (.operation (reconciliation.overLines [])) := .operation reconciliation [] trivial
  have hpaired : List.Forall₂ Call.OverLines pairedCalls pairedLines :=
    .cons (.audit ..) (.cons (.audit ..) (.cons hreconcile .nil))
  have hfiltered : pairedCalls.filter Call.isOperation = [.operation reconciliation] := rfl
  have hanswers : answersTo act Call.isOperation freshCampaign pairedCalls =
      answersTo Campaign.act Campaign.Call.isOperation freshLines pairedLines :=
    answers_lines hpaired
  have hothers : answersTo act Call.isOperation freshCampaign [.operation reconciliation] =
      answersTo Campaign.act Campaign.Call.isOperation freshLines
        [.operation (reconciliation.overLines [])] :=
    answers_lines (.cons hreconcile .nil)
  rw [hfiltered, hanswers, hothers]
  intro heq
  rw [heq, hwithout] at hwith
  simp at hwith

end Witnesses

end OnDisk

end Kripto.Campaign
